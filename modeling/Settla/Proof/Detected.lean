import Settla.Node.DepositWorker
import Settla.Proof.Deposit

/-!
# Detected payments and their sessions

The poller records a transaction before it announces it, and the engine takes a recorded transaction for
one it has handled. So a delivery of the announcement does nothing unless the engine's lookup fails.
-/

namespace Settla.Node

open Settla.Core Settla.Deposit Lib Lib.Threads List

/-- The answers with which a delivery adds the payment to the session: the lookup has to fail. -/
def records : List SessionAnswer → Bool
  | a₀ :: a₁ :: a₂ :: _ => a₀.reply = .ok && a₁.reply ≠ .ok && a₂.reply.applied
  | _ => false

def completes : List SessionAnswer → Bool
  | a₀ :: a₁ :: a₂ :: a₃ :: _ => a₀.reply = .ok && a₁.reply ≠ .ok && a₂.reply = .ok && a₃.reply.applied
  | _ => false

theorem records_of_completes {as : List SessionAnswer} (h : completes as = true) : records as = true := by
  match as, h with
  | a₀ :: a₁ :: a₂ :: a₃ :: _, h =>
    simp only [completes, Bool.and_eq_true, decide_eq_true_eq] at h
    obtain ⟨⟨⟨h₀, h₁⟩, h₂⟩, -⟩ := h
    simp [records, h₀, h₁, h₂, Reply.applied]

variable {p : DepositTxDetectedPayload} {db : DB} {as : List SessionAnswer}

/-- The database after the payment is added to the session. -/
def added (p : DepositTxDetectedPayload) (db : DB) : DB :=
  let t := newDepositTx db.row (incoming p)
  { db with row := tables.accumulate t db.row, txs := db.txs ++ [tables.insert t] }

/-- The poller's row, or one of the engine, that the lookup finds. -/
def Known (p : DepositTxDetectedPayload) (db : DB) : Prop :=
  db.row.tenantID = p.tenantID ∧ db.txs.any (tables.sameKey (newDepositTx db.row (incoming p))) = true

/-- What a delivery of the event of a recorded transaction can do. -/
inductive Delivered (p : DepositTxDetectedPayload) (db : DB) (as : List SessionAnswer) : DB → Prop
  | skipped : records as = false → Delivered p db as db
  | recorded : records as = true → ¬ (completes as = true ∧ db.row.canTransitionTo .detected = true) →
      Delivered p db as (added p db)
  | moved (s : DepositSession) (es : List DepositEntry) :
      completes as = true → db.row.canTransitionTo .detected = true →
      s.status = .detected → s.receivedAmount = db.row.receivedAmount + p.amount →
      Delivered p db as
        { added p db with row := tables.update (added p db).row s, outbox := db.outbox ++ es }

theorem records_refused {a₀ : SessionAnswer} (h : a₀.reply ≠ .ok) : records (a₀ :: as) = false := by
  rcases as with _ | ⟨a₁, _ | ⟨a₂, as⟩⟩
  · rfl
  · rfl
  · simp [records, h]

theorem exec_transition {step : String} {s : DepositSession} {es : List DepositEntry} {r : SessionResult}
    (hv : db.row.version + 1 = s.version) (a : SessionAnswer) (as : List SessionAnswer) :
    ((transitionWithOutbox tables step s es (.ret r)).exec (a :: as) db).1 =
      if a.reply.applied then { db with row := tables.update db.row s, outbox := db.outbox ++ es } else db := by
  have hv' : tables.version db.row + 1 = tables.version s := hv
  dsimp only [transitionWithOutbox, Prog.exec]
  cases a.reply <;> simp [Reply.applied, hv']

/-- **What a delivery does**, by the answers it gets. -/
theorem delivered_cases (h : Known p db) (as : List SessionAnswer) :
    Delivered p db as ((handleTxDetected p).exec as db).1 := by
  obtain ⟨htenant, hfound⟩ := h
  -- the session is loaded
  rcases as with _ | ⟨a₀, as⟩
  · exact .skipped rfl
  dsimp only [handleTxDetected, handleTransactionDetected, getSession, Prog.exec]
  by_cases h₀ : a₀.reply = .ok
  case neg =>
    rw [if_neg fun h => h₀ h.1, exec_ret]
    exact .skipped (records_refused h₀)
  rw [if_pos ⟨h₀, htenant⟩]
  -- the transaction is looked up
  rcases as with _ | ⟨a₁, as⟩
  · exact .skipped rfl
  dsimp only [findTx, Prog.exec]
  rw [hfound, Bool.and_true]
  by_cases h₁ : a₁.reply = .ok
  case pos =>
    rw [if_pos (by simp [h₁]), exec_ret]
    refine .skipped ?_
    rcases as with _ | ⟨a₂, as⟩
    · rfl
    · simp [records, h₁]
  rw [if_neg (by simp [h₁])]
  -- it is recorded
  rcases as with _ | ⟨a₂, as⟩
  · exact .skipped rfl
  dsimp only [recordTx, Prog.exec]
  cases h₂ : a₂.reply with
  | error => exact .skipped (by simp [records, h₂, Reply.applied])
  | lost =>
    have hlost : completes (a₀ :: a₁ :: a₂ :: as) = false := by
      cases as <;> simp [completes, h₂]
    exact .recorded (by simp [records, h₀, h₁, h₂, Reply.applied]) (by simp [hlost])
  | ok =>
  have hrec : records (a₀ :: a₁ :: a₂ :: as) = true := by simp [records, h₀, h₁, h₂, Reply.applied]
  rw [if_pos rfl]
  show Delivered p db (a₀ :: a₁ :: a₂ :: as) (Prog.exec _ as (added p db)).1
  by_cases hcan : db.row.canTransitionTo .detected = true
  case neg =>
    rw [if_pos hcan, exec_ret]
    exact .recorded hrec fun h => hcan h.2
  rw [if_neg (not_not.2 hcan)]
  -- and the session is written
  have hto : ∀ r : Decimal, { db.row with receivedAmount := r }.transitionTo .detected =
      some { db.row with receivedAmount := r, status := .detected, version := db.row.version + 1 } :=
    fun r => if_pos hcan
  rw [Deposit.advance, hto]
  rcases as with _ | ⟨a₃, as⟩
  · exact .recorded hrec fun h => by simp [completes] at h
  have hv : (added p db).row.version = db.row.version := rfl
  rw [exec_transition (by rw [hv])]
  by_cases h₃ : a₃.reply.applied = true
  case neg =>
    rw [if_neg h₃]
    exact .recorded hrec fun h => by simp [completes, h₃] at h
  rw [if_pos h₃]
  exact .moved _ _ (by simp [completes, h₀, h₁, h₂, h₃]) hcan rfl rfl

/-! ## All deliveries -/

/-- The row can take an amount, and has a status from which it can be DETECTED or is. -/
structure Payable (db : DB) : Prop where
  nonneg : 0 ≤ db.row.receivedAmount
  grid : numeric8 db.row.receivedAmount = db.row.receivedAmount
  status : db.row.status = .detected ∨ db.row.canTransitionTo .detected = true

theorem Known.grow {db' : DB} (h : Known p db) (htenant : db'.row.tenantID = db.row.tenantID)
    {ts : List DepositTransaction} (htxs : db'.txs = db.txs ++ ts) : Known p db' := by
  obtain ⟨ht, hfound⟩ := h
  refine ⟨htenant.trans ht, ?_⟩
  rw [htxs, any_append, Bool.or_eq_true]
  exact .inl hfound

theorem deliver_once (hknown : Known p db) (h : Payable db) (as : List SessionAnswer) :
    let db' := ((handleTxDetected p).exec as db).1
    Known p db' ∧ Payable db' ∧
      db'.row.status = (if completes as then .detected else db.row.status) ∧
      db'.row.receivedAmount = db.row.receivedAmount + if records as then numeric8 p.amount else 0 := by
  have hadd : numeric8 (db.row.receivedAmount + p.amount) = db.row.receivedAmount + numeric8 p.amount :=
    roundPlaces_add h.nonneg h.grid p.amount.2
  have hnonneg : 0 ≤ numeric8 (db.row.receivedAmount + p.amount) :=
    roundPlaces_nonneg 8 (add_nonneg h.nonneg p.amount.2)
  have hgrid := roundPlaces_idem 8 (db.row.receivedAmount + p.amount)
  have hcases := delivered_cases hknown as
  revert hcases
  generalize ((handleTxDetected p).exec as db).1 = db'
  intro hcases
  cases hcases with
  | skipped hrec =>
    have hcomp : completes as = false := by
      by_contra hc
      simp [records_of_completes (Bool.not_eq_false _ ▸ hc)] at hrec
    simp [hknown, h, hrec, hcomp]
  | recorded hrec hcomp =>
    refine ⟨hknown.grow rfl rfl, ⟨hnonneg, hgrid, h.status⟩, ?_, ?_⟩
    -- written or not, a session that stays is where it should be
    · split
      · rename_i hc
        exact h.status.resolve_right fun hcan => hcomp ⟨hc, hcan⟩
      · rfl
    · rw [hrec, if_pos rfl]
      exact hadd
  | moved s es hcomp hcan hst hr =>
    refine ⟨hknown.grow rfl rfl, ⟨?_, ?_, .inl hst⟩, ?_, ?_⟩
    · show 0 ≤ numeric8 s.receivedAmount
      rw [hr]
      exact hnonneg
    · show numeric8 (numeric8 s.receivedAmount) = numeric8 s.receivedAmount
      rw [hr]
      exact hgrid
    · rw [hcomp, if_pos rfl]
      exact hst
    · show numeric8 s.receivedAmount = _
      rw [records_of_completes hcomp, if_pos rfl, hr]
      exact hadd

/-- **The columns after all deliveries**: the payment is added each time it is recorded. -/
theorem deliver_all (hknown : Known p db) (h : Payable db) (deliveries : List (List SessionAnswer)) :
    let db' := deliverDetected p db deliveries
    db'.row.status = (if deliveries.any completes then .detected else db.row.status) ∧
      db'.row.receivedAmount = db.row.receivedAmount + deliveries.countP records * numeric8 p.amount := by
  induction deliveries generalizing db with
  | nil => simp [deliverDetected, run]
  | cons as rest ih =>
    obtain ⟨hknown', h', hst, hr⟩ := deliver_once hknown h as
    obtain ⟨hst', hr'⟩ := ih hknown' h'
    refine ⟨hst'.trans ?_, hr'.trans ?_⟩
    · rw [hst, any_cons]
      cases completes as <;> simp
    · rw [hr, countP_cons]
      split <;> push_cast <;> ring

/-- **When a detected payment reaches its session.** A poller has recorded and announced a transfer
to a session that is PENDING_PAYMENT, EXPIRED or CANCELLED, and the event is delivered any number of
times. The session is then DETECTED and has received the payment once just if a delivery got past a
failing lookup and wrote the session, and no other delivery recorded the payment. -/
theorem detected_once_iff (confirmations : ℤ) (watched : CryptoChain → String → Bool) (lookup : Reply)
    (tx : IncomingTransaction) (db : DB) (deliveries : List (List SessionAnswer))
    (hstatus : db.row.status ∈ [.pendingPayment, .expired, .cancelled])
    (hnonneg : 0 ≤ db.row.receivedAmount) (hgrid : numeric8 db.row.receivedAmount = db.row.receivedAmount)
    (hwatched : watched tx.chain tx.tokenContract = true)
    (hnew : lookup = .ok → db.txs.any (tables.sameKey (detectedTx confirmations db.row tx)) = false) :
    let db' := deliverDetected (detectedPayload db.row tx)
      (processIncomingTx confirmations watched lookup tx db) deliveries
    db'.row.status = .detected ∧ db'.row.receivedAmount = db.row.receivedAmount + numeric8 tx.amount ↔
      deliveries.any completes = true ∧ (deliveries.countP records = 1 ∨ numeric8 tx.amount = 0) := by
  have hwrote : processIncomingTx confirmations watched lookup tx db =
      writeDetectedTx (detectedTx confirmations db.row tx)
        [entry db.row (.event .txDetected (.txDetected (detectedPayload db.row tx)))] db := by
    unfold processIncomingTx
    rw [if_neg fun h => by simp [hnew h.1] at h, if_neg (not_not.2 hwatched)]
  rw [hwrote]
  have hcan : db.row.canTransitionTo .detected = true := by
    unfold DepositSession.canTransitionTo
    simp only [mem_cons, not_mem_nil, or_false] at hstatus
    rcases hstatus with h | h | h <;> rw [h] <;> decide
  have hundetected : db.row.status ≠ .detected := by
    rintro h
    rw [h] at hstatus
    revert hstatus
    decide
  have hknown es : Known (detectedPayload db.row tx) (writeDetectedTx (detectedTx confirmations db.row tx) es db) :=
    ⟨rfl, by simp [writeDetectedTx, tables, newDepositTx, incoming, detectedPayload, detectedTx]⟩
  obtain ⟨hst, hr⟩ := deliver_all (hknown _) ⟨hnonneg, hgrid, .inr hcan⟩ deliveries
  have hdetected : (if deliveries.any completes = true then DepositSessionStatus.detected else db.row.status) = .detected ↔
      deliveries.any completes = true := by
    simp [hundetected]
  have honce : db.row.receivedAmount + deliveries.countP records * numeric8 tx.amount =
      db.row.receivedAmount + numeric8 tx.amount ↔ deliveries.countP records = 1 ∨ numeric8 tx.amount = 0 := by
    rw [add_right_inj]
    by_cases hx : numeric8 tx.amount = 0
    · simp [hx]
    · rw [mul_eq_right₀ hx, Nat.cast_eq_one]
      simp [hx]
  refine and_congr ?_ ?_
  · rw [hst]
    exact hdetected
  · rw [hr]
    exact honce

theorem detected_once_lookup_failing :
    let db := ⟨sampleSession, [], []⟩
    let db' := deliverDetected (detectedPayload sampleSession (sampleTx "a" 10))
      (processIncomingTx 19 (fun _ _ => true) .ok (sampleTx "a" 10) db) [[{}, { reply := .error }, {}, {}]]
    db'.row.status = .detected ∧ db'.row.receivedAmount = db.row.receivedAmount + numeric8 10 :=
  (detected_once_iff 19 (fun _ _ => true) .ok (sampleTx "a" 10) ⟨sampleSession, [], []⟩ _
    (by decide) (by decide +kernel) (by decide +kernel) rfl (by decide)).2 (by decide +kernel)

/-- **A payment that is detected is ignored** by a delivery without any failure. And when the lookup
fails in two deliveries, of which the first crashes before it writes the session, the payment is
added twice. -/
theorem detected_ignored :
    let p := detectedPayload sampleSession (sampleTx "a" 10)
    let db := processIncomingTx 19 (fun _ _ => true) .ok (sampleTx "a" 10) ⟨sampleSession, [], []⟩
    let once := (handleTxDetected p).exec [{}, {}] db
    let twice := deliverDetected p db [[{}, { reply := .error }, {}], [{}, { reply := .error }, {}, {}]]
    (once.2 = some (.ok ()) ∧ once.1.row.status = .pendingPayment ∧ once.1.row.receivedAmount = 0) ∧
      twice.row.status = .detected ∧ twice.row.receivedAmount = 20 := by
  decide +kernel

end Settla.Node
