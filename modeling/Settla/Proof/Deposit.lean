import Settla.Core.Deposit
import Settla.Proof.Session

/-!
# What the crypto deposit engine can do

`Call.moves` lists the status changes of each method, `rulesFor` what a call may record and write;
`program_sessional` shows that the methods keep to this, and everything else is derived from it.
-/

namespace Settla.Deposit

open Settla.Core Lib Lib.Threads

def Call.moves : Call → List (DepositSessionStatus × DepositSessionStatus)
  | .handleTransactionDetected _ => [(.pendingPayment, .detected), (.expired, .detected), (.cancelled, .detected)]
  | .handleTransactionConfirmed _ _ => [(.detected, .confirmed), (.confirmed, .crediting)]
  | .handleCreditResult _ =>
    [(.crediting, .credited), (.crediting, .failed), (.credited, .settling), (.credited, .held)]
  | .handleSettlementResult _ => [(.settling, .settled), (.settling, .failed)]
  | .expireSession => [(.pendingPayment, .expired)]
  | .cancelSession => [(.pendingPayment, .cancelled)]

variable (es : List DepositEntry)

def credits : List Decimal :=
  es.filterMap fun e => match e.body with
    | .credit p => some p.grossAmount
    | _ => none

theorem credits_append (xs ys : List DepositEntry) : credits (xs ++ ys) = credits xs ++ credits ys :=
  List.filterMap_append

def settles : List Decimal :=
  es.filterMap fun e => match e.body with
    | .settle p => some p.amount
    | _ => none

theorem settles_append (xs ys : List DepositEntry) : settles (xs ++ ys) = settles xs ++ settles ys :=
  List.filterMap_append

def rulesOf (c : Call) : SessionRules DepositSession DepositTransaction DepositEntry where
  Pays s t := ∃ tx, c = .handleTransactionDetected tx ∧ t = newDepositTx s tx
  Edge s h s' es :=
    (s.status, s'.status) ∈ c.moves ∧ (h ≠ .written ∧ (s'.status = .crediting → h = .loaded)) ∧
      s'.id = s.id ∧ s'.version = s.version + 1 ∧
      s'.receivedAmount = s.receivedAmount + h.amount (·.amount) ∧
      credits es = if s'.status = .crediting then [s'.receivedAmount] else []

/-- A settle intent is written with the status SETTLING only, for the net amount. -/
def Settles (_ s : DepositSession) (es : List DepositEntry) : Prop :=
  settles es = if s.status = .settling then [s.netAmount] else []

def rulesFor (c : Call) : SessionRules DepositSession DepositTransaction DepositEntry := (rulesOf c).and Settles

def Notices : Prop := credits es = [] ∧ settles es = []

theorem transitionTo_eq {s s' : DepositSession} {target : DepositSessionStatus} (h : s.transitionTo target = some s') :
    target ∈ validDepositTransitions s.status ∧ s' = { s with status := target, version := s.version + 1 } := by
  unfold DepositSession.transitionTo at h
  split at h
  · rename_i hcan
    exact ⟨by simpa [DepositSession.canTransitionTo] using hcan, (Option.some.inj h).symm⟩
  · cases h

/-- A session that differs from the copy only in what a payment adds, and in other fields. -/
def Copies (s₀ : DepositSession) (h : Held DepositTransaction) (s : DepositSession) : Prop :=
  s.id = s₀.id ∧ s.status = s₀.status ∧ s.version = s₀.version ∧
    s.receivedAmount = s₀.receivedAmount + h.amount (·.amount)

section

variable {c : Call} {s₀ s : DepositSession} {h : Held DepositTransaction} {step : String}
  {target : DepositSessionStatus} {entries : DepositSession → List DepositEntry} {k : Program}

theorem advance_sessional (hs : Copies s₀ h s) (hw : h ≠ .written ∧ (target = .crediting → h = .loaded))
    (hmove : target ∈ validDepositTransitions s.status → (s.status, target) ∈ c.moves)
    (hcred : ∀ s', credits (entries s') = if target = .crediting then [s'.receivedAmount] else [])
    (hsettle : ∀ s', settles (entries s') = if target = .settling then [s'.netAmount] else [])
    (hk : ∀ s', Sessional tables (rulesFor c) s' .written k) :
    Sessional tables (rulesFor c) s₀ h (advance step s target entries k) := by
  unfold advance
  split
  · exact sessional_ret _
  · rename_i s' hs'
    obtain ⟨hvalid, rfl⟩ := transitionTo_eq hs'
    obtain ⟨hid, hst, hv, hr⟩ := hs
    refine sessional_transition ⟨⟨?_, hw, hid, congrArg (· + 1) hv, hr, hcred _⟩, hsettle _⟩ (hk _)
    rw [← hst]
    exact hmove hvalid

theorem inStatus_sessional {R : SessionRules DepositSession DepositTransaction DepositEntry} {status : DepositSessionStatus}
    (hk : s.status = status → Sessional tables R s₀ h k) : Sessional tables R s₀ h (inStatus step s status target k) := by
  unfold inStatus
  split
  · exact sessional_ret _
  · rename_i hst
    exact hk (not_not.1 hst)

theorem advance_noticed (hs : Copies s₀ h s) (hw : h ≠ .written)
    (hmove : target ∈ validDepositTransitions s.status → (s.status, target) ∈ c.moves)
    (htarget : target ≠ .crediting ∧ target ≠ .settling) (hentries : ∀ s', Notices (entries s'))
    (hk : ∀ s', Sessional tables (rulesFor c) s' .written k) :
    Sessional tables (rulesFor c) s₀ h (advance step s target entries k) := by
  refine advance_sessional hs ⟨hw, fun h => absurd h htarget.1⟩ hmove (fun s' => ?_) (fun s' => ?_) hk
  · rw [if_neg htarget.1]
    exact (hentries s').1
  · rw [if_neg htarget.2]
    exact (hentries s').2

theorem advance_last (hs : Copies s₀ .loaded s) (hmove : (s.status, target) ∈ c.moves)
    (htarget : target ≠ .crediting ∧ target ≠ .settling) (hentries : ∀ s', Notices (entries s')) :
    Sessional tables (rulesFor c) s₀ .loaded (advance step s target entries (.ret (.ok ()))) :=
  advance_noticed hs (by nofun) (fun _ => hmove) htarget hentries fun _ => sessional_ret _

end

theorem notices_detected (tx : IncomingTransaction) (late : Bool) (s : DepositSession) :
    Notices (detectedEntries tx late s) := by
  cases late <;> exact ⟨rfl, rfl⟩

section

variable {s₀ : DepositSession} {h : Held DepositTransaction} (tenantID : UUID)

theorem detected_sessional (tx : IncomingTransaction) :
    Sessional tables (rulesFor (.handleTransactionDetected tx)) s₀ h (handleTransactionDetected tenantID tx) := by
  refine sessional_getSession fun s => ?_
  have hpay : (rulesFor (.handleTransactionDetected tx)).Pays s (newDepositTx s tx) := ⟨tx, rfl, rfl⟩
  refine sessional_findTx hpay fun found => ?_
  split
  · exact sessional_ret _
  refine sessional_recordTx hpay ?_
  split
  · exact sessional_ret _
  -- the payment is counted into the copy as well
  · refine advance_noticed ⟨rfl, rfl, rfl, rfl⟩ (by nofun) ?_ (by decide)
      (fun s' => notices_detected tx _ s') fun _ => sessional_ret _
    show _ ∈ validDepositTransitions s.status → _
    dsimp only [Call.moves]
    cases s.status <;> decide

theorem failSession_sessional {c : Call} (s : DepositSession) (reason code : String) (hmove : (s.status, .failed) ∈ c.moves) :
    Sessional tables (rulesFor c) s .loaded (failSession s reason code) :=
  advance_last ⟨rfl, rfl, rfl, (add_zero _).symm⟩ hmove (by decide) fun _ => ⟨rfl, rfl⟩

theorem initiateCredit_sessional (txHash : String) (n : ℤ) :
    Sessional tables (rulesFor (.handleTransactionConfirmed txHash n)) s₀ h (initiateCredit tenantID txHash) := by
  refine sessional_getSession fun s => inStatus_sessional fun hst => sessional_getTenant fun schedule => ?_
  refine advance_sessional ⟨rfl, rfl, rfl, (add_zero _).symm⟩ ⟨nofun, fun _ => rfl⟩ (fun _ => ?_) (fun _ => rfl) (fun _ => rfl)
    fun _ => sessional_ret _
  rw [hst]
  simp [Call.moves]

theorem confirmed_sessional (txHash : String) (n : ℤ) :
    Sessional tables (rulesFor (.handleTransactionConfirmed txHash n)) s₀ h
      (handleTransactionConfirmed tenantID txHash n) := by
  refine sessional_getSession fun s => inStatus_sessional fun hst => ?_
  refine advance_noticed ⟨rfl, rfl, rfl, (add_zero _).symm⟩ (by nofun) (fun _ => ?_) (by decide)
    (fun _ => ⟨rfl, rfl⟩) fun _ => initiateCredit_sessional tenantID txHash n
  rw [hst]
  simp [Call.moves]

theorem routeAfterCredit_sessional (res : Result) :
    Sessional tables (rulesFor (.handleCreditResult res)) s₀ h (routeAfterCredit tenantID) := by
  refine sessional_getSession fun s => ?_
  have hhold : Sessional tables (rulesFor (.handleCreditResult res)) s .loaded (holdSession s) := by
    refine inStatus_sessional fun hst => ?_
    refine advance_last ⟨rfl, rfl, rfl, (add_zero _).symm⟩ ?_ (by decide) fun _ => ⟨rfl, rfl⟩
    rw [hst]
    simp [Call.moves]
  split
  · refine inStatus_sessional fun hst => ?_
    refine advance_sessional ⟨rfl, rfl, rfl, (add_zero _).symm⟩ ⟨nofun, fun _ => rfl⟩ (fun _ => ?_)
      (fun _ => rfl) (fun _ => rfl)
      fun _ => sessional_ret _
    rw [hst]
    simp [Call.moves]
  · exact hhold
  · exact hhold

theorem creditResult_sessional (res : Result) :
    Sessional tables (rulesFor (.handleCreditResult res)) s₀ h (handleCreditResult tenantID res) := by
  refine sessional_getSession fun s => inStatus_sessional fun hst => ?_
  split
  · exact failSession_sessional s _ _ (by rw [hst]; simp [Call.moves])
  · refine sessional_getTenant fun schedule => ?_
    refine advance_noticed ⟨rfl, rfl, rfl, (add_zero _).symm⟩ (by nofun) (fun _ => ?_) (by decide)
      (fun _ => ⟨rfl, rfl⟩) fun _ => routeAfterCredit_sessional tenantID res
    rw [hst]
    simp [Call.moves]

theorem settlementResult_sessional (res : Result) :
    Sessional tables (rulesFor (.handleSettlementResult res)) s₀ h (handleSettlementResult tenantID res) := by
  refine sessional_getSession fun s => inStatus_sessional fun hst => ?_
  split
  · exact failSession_sessional s _ _ (by rw [hst]; simp [Call.moves])
  · refine advance_last ⟨rfl, rfl, rfl, (add_zero _).symm⟩ ?_ (by decide) fun _ => ⟨rfl, rfl⟩
    rw [hst]
    simp [Call.moves]

theorem expireSession_sessional :
    Sessional tables (rulesFor .expireSession) s₀ h (expireSession tenantID) := by
  refine sessional_getSession fun s => ?_
  split
  · exact sessional_ret _
  · rename_i hst
    refine advance_last ⟨rfl, rfl, rfl, (add_zero _).symm⟩ ?_ (by decide) fun _ => ⟨rfl, rfl⟩
    rw [not_not.1 hst]
    simp [Call.moves]

theorem cancelSession_sessional :
    Sessional tables (rulesFor .cancelSession) s₀ h (cancelSession tenantID) := by
  refine sessional_getSession fun s => inStatus_sessional fun hst => ?_
  refine advance_last ⟨rfl, rfl, rfl, (add_zero _).symm⟩ ?_ (by decide) fun _ => ⟨rfl, rfl⟩
  rw [hst]
  simp [Call.moves]

end

variable (c : SessionCall Call)

/-- **A call records and writes only what its rules allow.** -/
theorem program_sessional {s₀ : DepositSession} {h : Held DepositTransaction} :
    Sessional tables (rulesFor c.call) s₀ h (program c) := by
  obtain ⟨tenantID, c⟩ := c
  cases c with
  | handleTransactionDetected tx => exact detected_sessional tenantID tx
  | handleTransactionConfirmed txHash n => exact confirmed_sessional tenantID txHash n
  | handleCreditResult res => exact creditResult_sessional tenantID res
  | handleSettlementResult res => exact settlementResult_sessional tenantID res
  | expireSession => exact expireSession_sessional tenantID
  | cancelSession => exact cancelSession_sessional tenantID

theorem program_pos : (program c).pos = .before .getSession := by
  obtain ⟨tenantID, c⟩ := c
  cases c <;> rfl

/-! ## Which calls fail a session -/

def Call.fails : Call → Bool
  | .handleCreditResult r | .handleSettlementResult r => !r.success
  | _ => false

def unfailing : SessionRules DepositSession DepositTransaction DepositEntry where
  Pays _ _ := True
  Edge _ _ s' _ := s'.status ≠ .failed

section

variable {s₀ s : DepositSession} {h : Held DepositTransaction} {step : String}
  {status target : DepositSessionStatus} {entries : DepositSession → List DepositEntry} {k : Program}

theorem advance_unfailing (htarget : target ≠ .failed) (hk : ∀ s', Sessional tables unfailing s' .written k) :
    Sessional tables unfailing s₀ h (advance step s target entries k) := by
  unfold advance
  split
  · exact sessional_ret _
  · rename_i s' hs'
    obtain ⟨-, rfl⟩ := transitionTo_eq hs'
    exact sessional_transition htarget (hk _)

theorem creditResult_unfailing (tenantID : UUID) {res : Result} (hres : res.success = true) :
    Sessional tables unfailing s₀ h (handleCreditResult tenantID res) := by
  have hroute : ∀ s', Sessional tables unfailing s' .written (routeAfterCredit tenantID) := by
    intro s'
    refine sessional_getSession fun s => ?_
    split <;> exact inStatus_sessional fun _ => advance_unfailing nofun fun _ => sessional_ret _
  refine sessional_getSession fun s => inStatus_sessional fun _ => ?_
  rw [if_neg (by simp [hres])]
  exact sessional_getTenant fun schedule => advance_unfailing nofun hroute

theorem settlementResult_unfailing (tenantID : UUID) {res : Result} (hres : res.success = true) :
    Sessional tables unfailing s₀ h (handleSettlementResult tenantID res) := by
  refine sessional_getSession fun s => inStatus_sessional fun _ => ?_
  rw [if_neg (by simp [hres])]
  exact advance_unfailing nofun fun _ => sessional_ret _

/-- **Only a call that reports a failure fails a session.** -/
theorem program_unfailing {c : SessionCall Call} (hc : c.call.fails = false) :
    Sessional tables unfailing s₀ h (program c) := by
  obtain ⟨tenantID, c⟩ := c
  -- the other methods have no move to FAILED at all
  have hmoves : (∀ m ∈ c.moves, m.2 ≠ .failed) → Sessional tables unfailing s₀ h (program ⟨tenantID, c⟩) := by
    intro hno
    refine Sessional.mono ⟨fun _ _ _ => trivial, fun s h s' es hedge => ?_⟩ (program_sessional ⟨tenantID, c⟩)
    exact hno _ hedge.1.1
  cases c with
  | handleCreditResult res => exact creditResult_unfailing tenantID (by simpa [Call.fails] using hc)
  | handleSettlementResult res => exact settlementResult_unfailing tenantID (by simpa [Call.fails] using hc)
  | handleTransactionDetected | handleTransactionConfirmed | expireSession | cancelSession =>
    exact hmoves (by simp [Call.moves])

theorem exec_unfailed {c : SessionCall Call} (hc : c.call.fails = false) {db : DB} (hdb : db.row.status ≠ .failed)
    (as : List SessionAnswer) : ((program c).exec as db).1.row.status ≠ .failed := by
  have hprogram : Sessional tables unfailing db.row .loaded (program c) := program_unfailing hc
  obtain ⟨hfollows, hpos⟩ := hprogram
  let Fine (db : DB) (q : Pos (SessionStep DepositSession DepositTransaction DepositEntry) SessionResult) : Prop :=
    db.row.status ≠ .failed ∧ ∃ s h, Carries unfailing s h q
  have hkeep : ∀ g a db db' q, Fine db (.before g) → SessionDoes tables unfailing g a db db' q → Fine db' q := by
    rintro g a db db' q ⟨hdb, s, h, hg⟩ hG
    cases hG with
    | refused => exact ⟨hdb, s, h, trivial⟩
    | loaded hq | looked hq | tenant hq | recorded hq => exact ⟨hdb, _, _, hq⟩
    | written _ hq =>
      have hwrites : unfailing.Edge s h _ _ := hg
      exact ⟨hwrites, _, _, hq⟩
  obtain ⟨q, hend, -⟩ := exec_position (K := Fine) hfollows hkeep ⟨hdb, _, _, hpos⟩ as
  exact hend

end

def rules : SessionRules DepositSession DepositTransaction DepositEntry where
  Pays s t := ∃ c, (rulesOf c).Pays s t
  Edge s h s' es := ∃ c, (rulesOf c).Edge s h s' es

theorem rulesOf_le (c : Call) : (rulesOf c).Le rules := ⟨fun _ _ h => ⟨c, h⟩, fun _ _ _ _ h => ⟨c, h⟩⟩

theorem program_follows : (program c).Follows (SessionDoes tables rules) := by
  have hc : Sessional tables (rulesFor c.call) default .loaded (program c) := program_sessional c
  exact ((hc.mono ((rulesOf c.call).and_le Settles)).mono (rulesOf_le c.call)).1

def amounts : SessionAmounts tables rules where
  id := (·.id)
  received := (·.receivedAmount)
  session := (·.sessionID)
  amount := (·.amount)
  stored := numeric8
  Received r := 0 ≤ r ∧ numeric8 r = r
  Payment t := 0 ≤ t.amount
  id_accumulate _ _ := rfl
  version_accumulate _ _ := rfl
  received_accumulate _ _ := rfl
  id_update _ _ := rfl
  version_update _ _ := rfl
  received_update _ _ := rfl
  session_insert _ := rfl
  amount_insert _ := rfl
  stored_received _ h := h.2
  stored_add r t hr ht := by
    have hadd : numeric8 (r + t.amount) = r + numeric8 t.amount := roundPlaces_add hr.1 hr.2 ht
    refine ⟨hadd, add_nonneg hr.1 (roundPlaces_nonneg 8 ht), ?_⟩
    rw [← hadd]
    exact roundPlaces_idem 8 _
  pays s t h := by
    obtain ⟨c, tx, -, rfl⟩ := h
    exact ⟨rfl, tx.amount.2⟩
  edge s h s' es hedge := by
    obtain ⟨c, -, -, hid, hv, hr, -⟩ := hedge
    exact ⟨hid, hv, hr⟩

def sampleSession : DepositSession :=
  ⟨7, 1, .pendingPayment, 0, "tron", "USDT", 100, 0, 0, 0, .hold, none, "", ""⟩

def sampleTx (txHash : String) (amount : ℕ) : IncomingTransaction :=
  ⟨"tron", txHash, "sender", "address", "USDT", ⟨amount, Nat.cast_nonneg amount⟩, 1, "block"⟩

end Settla.Deposit
