import Settla.Node.BankDepositWorker
import Settla.Proof.OneCredit

/-!
# Bank money is credited or refunded

A session credits or refunds the amount it has when it validates a payment. What comes later is only
recorded; and a refund goes to a partner that is looked up by the number of the account.
-/

namespace Settla.BankDeposit

open Settla.Core Lib Lib.Threads List
open Settla.Deposit (Result)

/-! ## Why a session fails -/

def isMismatch : FailReason → Bool
  | .mismatch _ _ _ => true
  | .text _ => false

def mismatched (s : BankDepositSession) : Bool := isMismatch s.failureReason

/-- The reason of a mismatch is written only to an UNDERPAID or OVERPAID session. -/
def reasons : SessionRules BankDepositSession BankDepositTransaction BankDepositEntry where
  Pays _ _ := True
  Edge s _ s' _ := mismatched s' = true → mismatched s = true ∨ s.status = .underpaid ∨ s.status = .overpaid

section

variable {s₀ s : BankDepositSession} {h : Held BankDepositTransaction} {step text : String}
  {status target : BankDepositSessionStatus} {entries : BankDepositSession → List BankDepositEntry}

theorem advance_reasons {k : BankDepositSession → Program}
    (hs : mismatched s = true → mismatched s₀ = true ∨ s₀.status = .underpaid ∨ s₀.status = .overpaid)
    (hk : ∀ s', s'.status = target → Sessional tables reasons s' .written (k s')) :
    Sessional tables reasons s₀ h (advance step s target entries k) := by
  unfold advance
  split
  · exact sessional_ret _
  · rename_i s' hs'
    obtain ⟨-, rfl⟩ := transitionTo_eq hs'
    exact sessional_transition hs (hk _ rfl)

theorem advance_reasons_copy (hs : mismatched s = mismatched s₀) :
    Sessional tables reasons s₀ h (advance step s target entries done) :=
  advance_reasons (fun hm => .inl (hs ▸ hm)) fun _ _ => sessional_ret _

theorem failSession_reasons {reason code : String} : Sessional tables reasons s₀ h (failSession s (.text reason) code) :=
  advance_reasons (fun hm => nomatch hm) fun _ _ => sessional_ret _

theorem handleMismatch_reasons {reason : String} (hstatus : status = .underpaid ∨ status = .overpaid) :
    Sessional tables reasons s .loaded (handleMismatch s status reason) := by
  refine advance_reasons (fun hm => .inl hm) fun s' hs' => ?_
  refine advance_reasons (fun _ => .inr ?_) fun _ _ => sessional_ret _
  rw [hs']
  exact hstatus

variable (tenantID : UUID)

theorem validateAndRoutePayment_reasons : Sessional tables reasons s₀ h (validateAndRoutePayment tenantID) := by
  refine sessional_getSession fun s => inStatus_sessional ?_
  split
  · exact handleMismatch_reasons (.inl rfl)
  split
  · exact handleMismatch_reasons (.inr rfl)
  · refine sessional_getSession fun s => inStatus_sessional (sessional_getTenant fun schedule => ?_)
    exact advance_reasons_copy rfl

theorem creditReceived_reasons (credit : IncomingBankCredit) :
    Sessional tables reasons s₀ h (handleBankCreditReceived tenantID credit) := by
  refine sessional_getSession fun s => sessional_findTx trivial fun found => ?_
  split
  · exact sessional_ret _
  refine sessional_recordTx trivial ?_
  unfold afterRecord
  split
  · exact sessional_ret _
  · exact advance_reasons (fun hm => .inl hm) fun _ _ => validateAndRoutePayment_reasons tenantID

theorem creditResult_reasons (res : Result) : Sessional tables reasons s₀ h (handleCreditResult tenantID res) := by
  refine sessional_getSession fun s => inStatus_sessional ?_
  split
  · exact failSession_reasons
  refine sessional_getTenant fun schedule => advance_reasons (fun hm => .inl hm) fun s' _ => ?_
  refine sessional_getSession fun s => ?_
  split <;> exact inStatus_sessional (advance_reasons_copy rfl)

theorem settlementResult_reasons (res : Result) :
    Sessional tables reasons s₀ h (handleSettlementResult tenantID res) := by
  refine sessional_getSession fun s => inStatus_sessional ?_
  split
  · exact failSession_reasons
  · exact advance_reasons_copy rfl

theorem expireSession_reasons : Sessional tables reasons s₀ h (expireSession tenantID) := by
  refine sessional_getSession fun s => ?_
  split
  · exact sessional_ret _
  · exact advance_reasons_copy rfl

theorem program_reasons (c : SessionCall Call) : Sessional tables reasons s₀ h (program c) := by
  obtain ⟨tenantID, c⟩ := c
  cases c with
  | handleBankCreditReceived credit => exact creditReceived_reasons tenantID credit
  | handleCreditResult res => exact creditResult_reasons tenantID res
  | handleSettlementResult res => exact settlementResult_reasons tenantID res
  | expireSession => exact expireSession_reasons tenantID
  | cancelSession =>
    show Sessional tables reasons s₀ h (cancelSession tenantID)
    exact sessional_getSession fun _ => inStatus_sessional (advance_reasons_copy rfl)

end

/-- What the calls record and write, with the reasons. -/
def moneyRules : SessionRules BankDepositSession BankDepositTransaction BankDepositEntry :=
  (rulesFor fun _ => True).inf reasons

/-! ## What has been asked for -/

def Refunds (s : BankDepositSession) (log : List BankDepositEntry) : Prop :=
  ∃ p, refunds log = [p] ∧ p.amount = s.receivedAmount ∧ p.accountNumber = s.accountNumber

inductive Phase
  | unpaid | credited | refunded | failed
  deriving DecidableEq

def phase : BankDepositSessionStatus → Phase
  | .pendingPayment | .expired | .cancelled | .paymentReceived => .unpaid
  | .crediting | .credited | .settling | .settled | .held => .credited
  | .underpaid | .overpaid => .refunded
  | .failed => .failed

theorem edge_phase {st st' : BankDepositSessionStatus} (h : st' ∈ validBankDepositTransitions st) :
    (phase st = .unpaid ∧ st' = .crediting) ∨ (phase st = .unpaid ∧ (st' = .underpaid ∨ st' = .overpaid)) ∨
      (st' ≠ .crediting ∧ ¬ (st' = .underpaid ∨ st' = .overpaid) ∧ phase st ≠ .failed ∧
        (phase st' = phase st ∨ st' = .failed)) := by
  revert h
  cases st <;> cases st' <;> decide

/-- The credit and refund intents of a session, by its phase. -/
def Paid (s : BankDepositSession) (log : List BankDepositEntry) : Prop :=
  match phase s.status with
  | .unpaid => credits log = [] ∧ refunds log = [] ∧ mismatched s = false
  | .credited => credits log = [s.receivedAmount] ∧ refunds log = [] ∧ mismatched s = false
  | .refunded => credits log = [] ∧ Refunds s log ∧ mismatched s = false
  | .failed => credits log = [] ∧ Refunds s log ∨ mismatched s = false

/-- What a copy has in common with the row. -/
structure Knows (db : DB) (s : BankDepositSession) : Prop where
  version : s.version ≤ db.row.version
  status : s.version = db.row.version → s.status = db.row.status
  terms : terms s = terms db.row
  failed : mismatched s = true → s.status = .failed

/-- A method carries such a copy. -/
def Copied (db : DB) (q : Pos (SessionStep BankDepositSession BankDepositTransaction BankDepositEntry) SessionResult) : Prop :=
  ∃ s h, Carries moneyRules s h q ∧ Knows db s

/-- The amount received is the sum of the credits, and what is asked for is the amount received. -/
structure Keeping (id : UUID) (db : DB)
    (ps : List (Pos (SessionStep BankDepositSession BankDepositTransaction BankDepositEntry) SessionResult)) : Prop where
  tally : (sessionTally amounts id).Inv db ps
  copied : ∀ q ∈ ps, Copied db q
  paid : Paid db.row db.outbox

/-- A credit is recorded only while the session takes payments, and no other call carries a current
copy. -/
def Prompt (id : UUID) (db : DB)
    (ps : List (Pos (SessionStep BankDepositSession BankDepositTransaction BankDepositEntry) SessionResult))
    (a : Action (SessionCall Call) SessionAnswer) : Prop :=
  (sessionTally amounts id).alone db ps a ∧
    match a with
    | .step i _ =>
      match ps[i]? with
      | some (.before (.recordTx _ _)) => db.row.canTransitionTo .paymentReceived = true
      | _ => True
    | _ => True

variable {db db' : DB} {s s' : BankDepositSession} {h : Held BankDepositTransaction} {es log : List BankDepositEntry}
  {q : Position} {ps : List Position}

theorem Paid.unmismatched (hp : Paid s log) (hst : phase s.status ≠ .failed) : mismatched s = false := by
  unfold Paid at hp
  cases hphase : phase s.status with
  | unpaid | credited | refunded => rw [hphase] at hp; exact hp.2.2
  | failed => exact absurd hphase hst

theorem phase_failed {st : BankDepositSessionStatus} (h : phase st = .failed) : st = .failed := by
  revert h
  cases st <;> decide

theorem Paid.knows (hp : Paid db.row db.outbox) : Knows db db.row := by
  refine ⟨Nat.le_refl _, fun _ => rfl, rfl, fun hm => ?_⟩
  by_contra hst
  rw [hp.unmismatched fun h => hst (phase_failed h)] at hm
  cases hm

theorem edge_reason (hedge : moneyRules.Edge s h s' es) (hs : mismatched s = true → s.status = .failed)
    (hm : mismatched s' = true) : phase s.status = .refunded := by
  rcases hedge.2 hm with hold | hst | hst
  · have hvalid := hedge.1.1.1
    rw [hs hold] at hvalid
    cases hvalid
  · rw [hst]
    rfl
  · rw [hst]
    rfl

theorem mismatched_update (row s : BankDepositSession) (hrow : mismatched row = false) :
    mismatched (tables.update row s) = mismatched s := by
  show isMismatch (if s.failureReason = .text "" then row.failureReason else s.failureReason) = isMismatch s.failureReason
  split
  · rename_i hnone
    rw [hnone]
    exact hrow
  · rfl

/-- **Writing the session** asks for all that was received. -/
theorem Paid.write (hp : Paid db.row db.outbox) (hedge : moneyRules.Edge s h s' es) (hs : Knows db s)
    (hst : s.status = db.row.status) (hreceived : s'.receivedAmount = db.row.receivedAmount) :
    Paid (tables.update db.row s') (db.outbox ++ es) := by
  have hvalid : s'.status ∈ validBankDepositTransitions db.row.status := hst ▸ hedge.1.1.1
  obtain ⟨hterms, hcredits, -, hrefunds, -⟩ := hedge.1.2
  have haccount : s'.accountNumber = db.row.accountNumber := by
    have hsame : terms s' = terms db.row := hterms.trans hs.terms
    simp only [terms, Prod.mk.injEq] at hsame
    exact hsame.2.2.1
  have hreason : phase db.row.status ≠ .failed → phase db.row.status ≠ .refunded →
      mismatched (tables.update db.row s') = false := by
    intro hfailed hrefunded
    rw [mismatched_update _ _ (hp.unmismatched hfailed)]
    by_contra hm
    refine hrefunded ?_
    rw [← hst]
    exact edge_reason hedge hs.failed (by simpa using hm)
  have hkeep : ∀ log', refunds log' = refunds db.outbox → Refunds db.row db.outbox →
      Refunds (tables.update db.row s') log' := by
    rintro log' hlog ⟨p, hp, hamount, hnumber⟩
    exact ⟨p, hlog.trans hp, hamount.trans hreceived.symm, hnumber⟩
  unfold Paid at hp ⊢
  have hstatus : (tables.update db.row s').status = s'.status := rfl
  rw [hstatus, credits_append, hcredits]
  rcases edge_phase hvalid with ⟨hunpaid, hto⟩ | ⟨hunpaid, hto⟩ | ⟨hcrediting, hmismatch, hfailed, hto⟩
  · rw [hunpaid] at hp
    have hnew := hreason (by rw [hunpaid]; nofun) (by rw [hunpaid]; nofun)
    rw [hto] at hrefunds ⊢
    refine ⟨?_, ?_, hnew⟩
    · rw [hp.1]
      rfl
    · rw [refunds_append, hp.2.1, hrefunds]
      rfl
  · rw [hunpaid] at hp
    have hnew := hreason (by rw [hunpaid]; nofun) (by rw [hunpaid]; nofun)
    have hasked : Refunds (tables.update db.row s') (db.outbox ++ es) := by
      refine ⟨refundOf s', ?_, rfl, haccount⟩
      rw [refunds_append, hp.2.1, hrefunds, if_pos hto]
      rfl
    rcases hto with hto | hto
    all_goals
      rw [hto, hp.1]
      exact ⟨rfl, hasked, hnew⟩
  · rw [if_neg hmismatch] at hrefunds
    have hsame : refunds (db.outbox ++ es) = refunds db.outbox := by rw [refunds_append, hrefunds, append_nil]
    rw [if_neg hcrediting, append_nil, hsame]
    cases hphase : phase db.row.status with
    | failed => exact absurd hphase hfailed
    | unpaid =>
      have hnew := hreason hfailed (by rw [hphase]; nofun)
      rw [hphase] at hp hto
      rcases hto with hto | hto
      · rw [hto]
        exact ⟨hp.1, hp.2.1, hnew⟩
      · rw [hto]
        exact .inr hnew
    | credited =>
      have hnew := hreason hfailed (by rw [hphase]; nofun)
      rw [hphase] at hp hto
      rcases hto with hto | hto
      · rw [hto]
        exact ⟨hp.1.trans (congrArg (fun r => [r]) hreceived.symm), hp.2.1, hnew⟩
      · rw [hto]
        exact .inr hnew
    | refunded =>
      rw [hphase] at hp hto
      have hasked := hkeep _ hsame hp.2.1
      rcases hto with hto | hto
      -- nothing leads from UNDERPAID or OVERPAID to the other
      · exact absurd hto (by revert hmismatch; cases s'.status <;> decide)
      · rw [hto]
        exact .inl ⟨hp.1, hasked⟩

theorem Paid.receive (hp : Paid db.row db.outbox) (htakes : db.row.canTransitionTo .paymentReceived = true)
    (t : BankDepositTransaction) : Paid (tables.accumulate t db.row) db.outbox := by
  have hunpaid : phase db.row.status = .unpaid := by
    unfold BankDepositSession.canTransitionTo at htakes
    revert htakes
    cases db.row.status <;> decide
  unfold Paid at hp ⊢
  have hstatus : (tables.accumulate t db.row).status = db.row.status := rfl
  rw [hstatus, hunpaid]
  rw [hunpaid] at hp
  exact hp

theorem money_step {id : UUID} {g : SessionStep BankDepositSession BankDepositTransaction BankDepositEntry}
    {a : SessionAnswer} (hG : SessionDoes tables moneyRules g a db db' q) (hg : Copied db (.before g))
    (hholds : (sessionTally amounts id).Holds db (.before g)) (hp : Paid db.row db.outbox)
    (htakes : ∀ s t, g = .recordTx s t → db.row.canTransitionTo .paymentReceived = true) :
    Paid db'.row db'.outbox ∧ Copied db' q ∧ ∀ s, Knows db s → Knows db' s := by
  obtain ⟨s₀, h₀, hcarries, hknows⟩ := hg
  cases hG with
  | refused => exact ⟨hp, ⟨_, .loaded, trivial, hp.knows⟩, fun _ h => h⟩
  | loaded hq => exact ⟨hp, ⟨_, _, hq, hp.knows⟩, fun _ h => h⟩
  | looked hq | tenant hq =>
    obtain ⟨rfl, -⟩ := hcarries
    exact ⟨hp, ⟨_, _, hq, hknows⟩, fun _ h => h⟩
  | @recorded s t _ _ _ hq =>
    obtain ⟨rfl, -⟩ := hcarries
    have hother : ∀ s', Knows db s' →
        Knows { db with row := tables.accumulate t db.row, txs := db.txs ++ [tables.insert t] } s' :=
      fun s' h => ⟨h.version, h.status, h.terms, h.failed⟩
    exact ⟨hp.receive (htakes _ _ rfl) t, ⟨_, _, hq, hother _ hknows⟩, hother⟩
  | @written s es _ _ _ hv hq =>
    have hedge : moneyRules.Edge s₀ h₀ s es := hcarries
    have hnext : s.version = s₀.version + 1 := hedge.1.1.2.2.1
    have hversion : db.row.version + 1 = s.version := hv
    have hst : s₀.status = db.row.status := hknows.status (by omega)
    -- the version check passed, so the copy has the amount of the row
    have hreceived : s.receivedAmount = db.row.receivedAmount := by
      refine (hholds _ rfl).2 ?_
      show s.version - 1 = db.row.version
      omega
    have hother : ∀ s', Knows db s' →
        Knows { db with row := tables.update db.row s, outbox := db.outbox ++ es } s' := by
      intro s' h
      have hle := h.version
      refine ⟨?_, fun heq => ?_, h.terms, h.failed⟩
      · show s'.version ≤ s.version
        omega
      · have heq' : s'.version = s.version := heq
        omega
    have hpaid := hp.write hedge hknows hst hreceived
    refine ⟨hpaid, ⟨s, .written, hq, ?_⟩, hother⟩
    refine ⟨Nat.le_refl _, fun _ => rfl, hedge.1.2.terms.trans hknows.terms, fun hm => ?_⟩
    have hrefunded := edge_reason hedge hknows.failed hm
    have hvalid := hedge.1.1.1
    revert hrefunded hvalid
    cases s₀.status <;> cases s.status <;> decide

theorem paid_keeps {id : UUID} : Keeps (SessionDoes tables moneyRules) program (Prompt id) (Keeping id) := by
  intro db ps a db' ps' hJ hok heff
  have hsound : (sessionTally amounts id).Sound (SessionDoes tables moneyRules) program := by
    have hrules : (sessionTally amounts id).Sound (SessionDoes tables rules) program := session_sound program_pos
    refine ⟨hrules.start, fun g a s s' q hG => hrules.step g a s s' q (hG.mono ?_)⟩
    exact ⟨fun _ _ h => (rulesFor_le _).1 _ _ h.1, fun _ _ _ _ h => (rulesFor_le _).2 _ _ _ _ h.1⟩
  have htally := tally_keeps hsound db ps a db' ps' hJ.tally hok.1 heff
  cases heff with
  | start c =>
    refine ⟨htally, forall_mem_snoc hJ.copied ?_, hJ.paid⟩
    rw [program_pos]
    exact ⟨_, .loaded, trivial, hJ.paid.knows⟩
  | drop i => exact ⟨htally, fun q hq => hJ.copied q (mem_of_mem_eraseIdx hq), hJ.paid⟩
  | idle i a => exact ⟨htally, hJ.copied, hJ.paid⟩
  | step i a g db' q hi hG =>
    have hmem := List.mem_of_getElem? hi
    have htakes : ∀ s t, g = .recordTx s t → db.row.canTransitionTo .paymentReceived = true := by
      rintro s t rfl
      have htaking := hok.2
      simp only [hi] at htaking
      exact htaking
    obtain ⟨hpaid, hq, hother⟩ := money_step hG (hJ.copied _ hmem) (hJ.tally.own _ hmem).2 hJ.paid htakes
    refine ⟨htally, forall_mem_set (fun q' hq' => ?_) hq, hpaid⟩
    obtain ⟨s, h, hcarries, hknows⟩ := hJ.copied q' hq'
    exact ⟨s, h, hcarries, hother s hknows⟩

instance (id : UUID) (db : DB) (ps : List Position) : ∀ a, Decidable (Prompt id db ps a)
  | .start _ => inferInstanceAs (Decidable ((sessionTally amounts id).alone db ps (.start _) ∧ True))
  | .drop _ => inferInstanceAs (Decidable ((sessionTally amounts id).alone db ps (.drop _) ∧ True))
  | .step i a =>
    match h : ps[i]? with
    | some (.before (.recordTx _ _)) =>
      decidable_of_iff ((sessionTally amounts id).alone db ps (.step i a : Action (SessionCall Call) SessionAnswer) ∧
        db.row.canTransitionTo .paymentReceived = true) (by simp [Prompt, h])
    | some (.before .getSession) | some (.before (.findTx _ _)) | some (.before (.getTenant _))
    | some (.before (.transition _ _)) | some (.returned _) | none =>
      decidable_of_iff ((sessionTally amounts id).alone db ps (.step i a : Action (SessionCall Call) SessionAnswer))
        (by simp [Prompt, h])

end Settla.BankDeposit

namespace Settla.Node

open Settla.Core Settla.BankDeposit Lib Lib.Threads List

variable (reg : Option PartnerRegistry)

/-- What a partner pays back when the worker has executed all refund intents. -/
def refundedBy (partner : String) (log : List BankDepositEntry) : Decimal :=
  ((((refunds log).filterMap (handleRefund reg)).filter (·.1 = partner)).map (·.2.amount)).sum

/-- The partner of the session is registered, and has the number of the account as its ID. -/
def refundable (s : BankDepositSession) : Bool :=
  match reg with
  | none => false
  | some reg => reg.get s.accountNumber = some s.bankingPartnerID

theorem refundedBy_one {s : BankDepositSession} {log : List BankDepositEntry}
    {p : RefundBankDepositPayload} (hlog : refunds log = [p]) (hamount : p.amount = s.receivedAmount)
    (hnumber : p.accountNumber = s.accountNumber) :
    refundedBy reg s.bankingPartnerID log = if refundable reg s then s.receivedAmount else 0 := by
  unfold refundedBy refundable
  rw [hlog]
  cases reg with
  | none => rfl
  | some reg =>
    cases hget : reg.get s.accountNumber with
    | none => simp [handleRefund, hnumber, hget]
    | some partner =>
      by_cases hpartner : partner = s.bankingPartnerID
      · simp [handleRefund, hnumber, hget, hpartner, hamount]
      · simp [handleRefund, hnumber, hget, hpartner]

/-- **Bank money is credited or refunded**, as long as a credit is recorded only while the session
takes payments and no other call carries a current copy: when all intents are executed, a session
that is SETTLED or HELD has credited what was recorded, and one that FAILED with a mismatch has
given it back just if it can be refunded, or nothing was recorded. -/
theorem credited_or_refunded (reg : Option PartnerRegistry) (db : BankDeposit.DB) (hfresh : BankDeposit.Fresh db)
    (hsum : db.row.receivedAmount = ((recorded db).map (·.amount)).sum) (hreason : db.row.failureReason = .text "")
    (as : List (Action (SessionCall BankDeposit.Call) SessionAnswer))
    (has : Meets program (Prompt db.row.id) (System.init db) as) :
    let db' := (run (System.act program) (System.init db) as).state
    let received := ((recorded db').map (·.amount)).sum
    let paidOut := (credits db'.outbox).sum + refundedBy reg db'.row.bankingPartnerID db'.outbox
    (db'.row.status = .settled ∨ db'.row.status = .held → received = paidOut) ∧
    (db'.row.status = .failed → mismatched db'.row = true →
      (received = paidOut ↔ refundable reg db'.row = true ∨ received = 0)) := by
  intro db' received paidOut
  have hinit : Keeping db.row.id db [] := by
    refine ⟨⟨hsum, ⟨rfl, trivial⟩, by simp⟩, by simp, ?_⟩
    unfold Paid
    rw [hfresh.status]
    refine ⟨hfresh.credits, hfresh.refunds, ?_⟩
    rw [mismatched, hreason]
    rfl
  obtain ⟨-, hJ⟩ := run_keeps (fun c => ((program_any c).inf (program_reasons c)).1) paid_keeps (init_following db) hinit has
  have hreceived : db'.row.receivedAmount = received := hJ.tally.total
  have hpaid : Paid db'.row db'.outbox := hJ.paid
  unfold Paid at hpaid
  refine ⟨fun hst => ?_, fun hst hm => ?_⟩
  · have hphase : phase db'.row.status = .credited := by
      rcases hst with hst | hst <;> rw [hst] <;> rfl
    rw [hphase] at hpaid
    have hnone : refundedBy reg db'.row.bankingPartnerID db'.outbox = 0 := by
      rw [refundedBy, hpaid.2.1]
      rfl
    show received = (credits db'.outbox).sum + _
    rw [hpaid.1, hnone, hreceived]
    simp
  · rw [hst] at hpaid
    rcases hpaid with ⟨hcredits, p, hp, hamount, hnumber⟩ | hfalse
    · have hback := refundedBy_one reg hp hamount hnumber
      show received = (credits db'.outbox).sum + _ ↔ _
      rw [hcredits, hback, sum_nil, zero_add, hreceived]
      cases refundable reg db'.row with
      | true | false => simp
    · rw [hm] at hfalse
      cases hfalse

def rejectingSession (partnerID : String) : BankDepositSession :=
  { sampleBankSession with bankingPartnerID := partnerID, minAmount := 50, mismatchPolicy := .reject }

def creditCall (bankReference : String) (amount : ℕ) : SessionCall BankDeposit.Call :=
  ⟨1, .handleBankCreditReceived (sampleCredit bankReference amount)⟩

theorem credited_or_refunded_underpaid :
    let as := inOrder [creditCall "a" 10] 7 {}
    let db := (run (System.act program) (System.init ⟨rejectingSession "account", [], []⟩) as).state
    db.row.status = .failed ∧
      ((recorded db).map (·.amount)).sum =
        (credits db.outbox).sum + refundedBy (some ⟨["account"]⟩) db.row.bankingPartnerID db.outbox := by
  refine ⟨by decide +kernel, ?_⟩
  refine ((credited_or_refunded (some ⟨["account"]⟩) ⟨rejectingSession "account", [], []⟩ ⟨rfl, rfl, rfl, rfl⟩ rfl rfl
    (inOrder [creditCall "a" 10] 7 {}) (by decide +kernel)).2 (by decide +kernel) (by decide +kernel)).2 (.inl ?_)
  decide +kernel

/-- **Bank money is neither credited nor refunded.** A second credit comes when the first has been
validated, and is only recorded. And a mismatch is refunded by nobody: the worker looks for a
partner by the number of the account. -/
theorem credit_stranded :
    (let as := inOrder [creditCall "a" 10, creditCall "b" 5, ⟨1, .handleCreditResult { success := true }⟩] 8 {}
      let s := run (System.act program) (System.init ⟨sampleBankSession, [], []⟩) as
      s.positions.all Pos.ended ∧ s.state.row.status = .held ∧ ((recorded s.state).map (·.amount)).sum = 15 ∧
        credits s.state.outbox = [10] ∧ refunds s.state.outbox = []) ∧
    (let as := inOrder [creditCall "a" 10] 8 {}
      let s := run (System.act program) (System.init ⟨rejectingSession "partner", [], []⟩) as
      s.positions.all Pos.ended ∧ s.state.row.status = .failed ∧ mismatched s.state.row ∧
        ((recorded s.state).map (·.amount)).sum = 10 ∧ credits s.state.outbox = [] ∧
        (refunds s.state.outbox).map (·.amount) = [10] ∧
        (refunds s.state.outbox).filterMap (handleRefund (some ⟨["partner"]⟩)) = []) := by
  decide +kernel

end Settla.Node
