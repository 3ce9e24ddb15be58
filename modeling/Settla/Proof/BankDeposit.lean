import Settla.Core.BankDeposit
import Settla.Proof.Session

/-!
# What the bank deposit engine can do

`rulesFor` says what the methods may record and write: every write follows the state machine, and
credits, settlements, refunds and recycled accounts are asked for only by their own steps.
-/

namespace Settla.BankDeposit

open Settla.Core Lib.Threads
open Settla.Deposit (Result)

abbrev Position := Pos (SessionStep BankDepositSession BankDepositTransaction BankDepositEntry) SessionResult

/-- What the methods may record and write, as far as the amounts go. -/
def rules : SessionRules BankDepositSession BankDepositTransaction BankDepositEntry where
  Pays s t := ∃ credit, t = newDepositTx s credit
  Edge s h s' _ :=
    s'.status ∈ validBankDepositTransitions s.status ∧ s'.id = s.id ∧ s'.version = s.version + 1 ∧
      s'.receivedAmount = s.receivedAmount + h.amount (·.amount)

/-! ## What entries ask for -/

variable (es : List BankDepositEntry)

def credits : List Decimal :=
  es.filterMap fun e => match e.body with
    | .credit p => some p.grossAmount
    | _ => none

def settles : List Decimal :=
  es.filterMap fun e => match e.body with
    | .settle p => some p.amount
    | _ => none

def refunds : List RefundBankDepositPayload :=
  es.filterMap fun e => match e.body with
    | .refund p => some p
    | _ => none

def recycles : List String :=
  es.filterMap fun e => match e.body with
    | .recycleAccount p => some p.accountNumber
    | _ => none

variable (s : BankDepositSession)

/-- What a session is agreed to be; no method changes it. -/
def terms :=
  (s.tenantID, s.bankingPartnerID, s.accountNumber, s.accountType, s.currency, s.expectedAmount, s.minAmount,
    s.maxAmount, s.mismatchPolicy, s.settlementPref)

def refundOf : RefundBankDepositPayload :=
  ⟨s.id, s.tenantID, s.accountNumber, s.receivedAmount, s.currency,
    if s.status = .underpaid then "underpaid" else "overpaid"⟩

/-- The session that is written has the same terms, and each intent is written with its
status. -/
structure Intended (s s' : BankDepositSession) (es : List BankDepositEntry) : Prop where
  terms : terms s' = terms s
  credits : credits es = if s'.status = .crediting then [s'.receivedAmount] else []
  settles : settles es = if s'.status = .settling then [s'.netAmount] else []
  refunds : refunds es = if s'.status = .underpaid ∨ s'.status = .overpaid then [refundOf s'] else []
  recycles : recycles es =
    if (s'.status = .expired ∨ s'.status = .cancelled) ∧ s'.accountType = .temporary then [s'.accountNumber] else []

/-- What the methods may record and write, when only some credits come in. -/
def rulesFor (A : IncomingBankCredit → Prop) : SessionRules BankDepositSession BankDepositTransaction BankDepositEntry where
  Pays s t := ∃ credit, A credit ∧ t = newDepositTx s credit
  Edge s h s' es := rules.Edge s h s' es ∧ Intended s s' es

theorem rulesFor_le (A : IncomingBankCredit → Prop) : (rulesFor A).Le rules :=
  ⟨fun _ _ ⟨credit, _, ht⟩ => ⟨credit, ht⟩, fun _ _ _ _ h => h.1⟩

/-- Entries that ask for nothing. -/
structure Notices (es : List BankDepositEntry) : Prop where
  credits : BankDeposit.credits es = []
  settles : BankDeposit.settles es = []
  refunds : BankDeposit.refunds es = []
  recycles : BankDeposit.recycles es = []

theorem Notices.intended {s s' : BankDepositSession} {es : List BankDepositEntry} (h : Notices es)
    (hterms : terms s' = terms s) (hst : s'.status ∈ [.paymentReceived, .credited, .settled, .held, .failed]) :
    Intended s s' es := by
  have hother : s'.status ≠ .crediting ∧ s'.status ≠ .settling ∧ ¬ (s'.status = .underpaid ∨ s'.status = .overpaid) ∧
      ¬ (s'.status = .expired ∨ s'.status = .cancelled) := by
    revert hst
    cases s'.status <;> decide
  obtain ⟨hcrediting, hsettling, hmismatch, hclosed⟩ := hother
  exact ⟨hterms, h.credits.trans (if_neg hcrediting).symm, h.settles.trans (if_neg hsettling).symm,
    h.refunds.trans (if_neg hmismatch).symm, h.recycles.trans (if_neg fun h => hclosed h.1).symm⟩

theorem notices_received (credit : IncomingBankCredit) (late : Bool) (s : BankDepositSession) :
    Notices (receivedEntries credit late s) := by
  cases late <;> exact ⟨rfl, rfl, rfl, rfl⟩

/-! ## The methods -/

theorem transitionTo_eq {s s' : BankDepositSession} {target : BankDepositSessionStatus}
    (h : s.transitionTo target = some s') :
    target ∈ validBankDepositTransitions s.status ∧ s' = { s with status := target, version := s.version + 1 } := by
  unfold BankDepositSession.transitionTo at h
  split at h
  · rename_i hcan
    exact ⟨by simpa [BankDepositSession.canTransitionTo] using hcan, (Option.some.inj h).symm⟩
  · cases h

/-- A session that differs from the copy only in what a payment adds, and in fields that
`rulesFor` does not speak of. -/
structure Copies (s₀ : BankDepositSession) (h : Held BankDepositTransaction) (s : BankDepositSession) : Prop where
  id : s.id = s₀.id
  status : s.status = s₀.status
  version : s.version = s₀.version
  received : s.receivedAmount = s₀.receivedAmount + h.amount (·.amount)
  terms : terms s = terms s₀

theorem copies_self : Copies s .loaded s := ⟨rfl, rfl, rfl, (add_zero _).symm, rfl⟩

section

variable {A : IncomingBankCredit → Prop} {s₀ s : BankDepositSession} {h : Held BankDepositTransaction} {step : String}
  {target : BankDepositSessionStatus} {entries : BankDepositSession → List BankDepositEntry}

variable {k : BankDepositSession → Program} {status : BankDepositSessionStatus} {reason : FailReason}

theorem advance_sessional (hs : Copies s₀ h s)
    (hentries : ∀ s', s'.status = target → terms s' = terms s₀ → Intended s₀ s' (entries s'))
    (hk : ∀ s', Sessional tables (rulesFor A) s' .written (k s')) :
    Sessional tables (rulesFor A) s₀ h (advance step s target entries k) := by
  unfold advance
  split
  · exact sessional_ret _
  · rename_i s' hs'
    obtain ⟨hvalid, rfl⟩ := transitionTo_eq hs'
    refine sessional_transition ⟨⟨hs.status ▸ hvalid, hs.id, congrArg (· + 1) hs.version, hs.received⟩, ?_⟩ (hk _)
    exact hentries _ rfl hs.terms

theorem advance_noticed (hs : Copies s₀ h s)
    (htarget : target ∈ [.paymentReceived, .credited, .settled, .held, .failed])
    (hentries : ∀ s', Notices (entries s')) (hk : ∀ s', Sessional tables (rulesFor A) s' .written (k s')) :
    Sessional tables (rulesFor A) s₀ h (advance step s target entries k) :=
  advance_sessional hs (fun s' hst hterms => (hentries s').intended hterms (hst ▸ htarget)) hk

theorem inStatus_sessional {R : SessionRules BankDepositSession BankDepositTransaction BankDepositEntry} {t : String}
    {k : Program} (hk : Sessional tables R s₀ h k) : Sessional tables R s₀ h (inStatus step s status t k) := by
  unfold inStatus
  split
  · exact sessional_ret _
  · exact hk

theorem done_sessional (s : BankDepositSession) : Sessional tables (rulesFor A) s h (done s) := sessional_ret _

theorem failSession_sessional {code : String}
    (hs : Copies s₀ h { s with failureReason := reason, failureCode := code }) :
    Sessional tables (rulesFor A) s₀ h (failSession s reason code) :=
  advance_noticed hs (by decide) (fun _ => ⟨rfl, rfl, rfl, rfl⟩) done_sessional

theorem handleMismatch_sessional {reason : String}
    (hmismatch : (status, reason) ∈ [(BankDepositSessionStatus.underpaid, "underpaid"), (.overpaid, "overpaid")]) :
    Sessional tables (rulesFor A) s .loaded (handleMismatch s status reason) := by
  refine advance_sessional (copies_self s) (fun s' hst hterms => ?_) fun s' =>
    failSession_sessional ⟨rfl, rfl, rfl, (add_zero _).symm, rfl⟩
  simp only [List.mem_cons, List.not_mem_nil, or_false, Prod.mk.injEq] at hmismatch
  rcases hmismatch with ⟨rfl, rfl⟩ | ⟨rfl, rfl⟩ <;>
    exact ⟨hterms, by rw [hst]; rfl, by rw [hst]; rfl, by rw [refundOf, hst]; rfl, by simp [hst]; rfl⟩

theorem advance_recycling {t : BankDepositEvent} {subject : BankDepositSubject}
    (htarget : target = .expired ∨ target = .cancelled) :
    Sessional tables (rulesFor A) s .loaded (advance step s target
      (fun s => entry s (.event t (reasonData s reason)) :: recycleEntries s ++
        bankDepositNotificationEntries s t subject (reasonData s reason)) done) := by
  refine advance_sessional (copies_self s) (fun s' hst hterms => ?_) done_sessional
  have hstatus : s'.status = .expired ∨ s'.status = .cancelled := hst ▸ htarget
  have hother : s'.status ≠ .crediting ∧ s'.status ≠ .settling ∧ ¬ (s'.status = .underpaid ∨ s'.status = .overpaid) := by
    rcases hstatus with h | h <;> rw [h] <;> decide
  unfold recycleEntries
  by_cases htemp : s'.accountType = .temporary
  · rw [if_pos htemp]
    exact ⟨hterms, (if_neg hother.1).symm, (if_neg hother.2.1).symm, (if_neg hother.2.2).symm,
      (if_pos ⟨hstatus, htemp⟩).symm⟩
  · rw [if_neg htemp]
    exact ⟨hterms, (if_neg hother.1).symm, (if_neg hother.2.1).symm, (if_neg hother.2.2).symm,
      (if_neg fun h => htemp h.2).symm⟩

variable (tenantID : UUID)

theorem initiateCredit_sessional : Sessional tables (rulesFor A) s₀ h (initiateCredit tenantID) := by
  refine sessional_getSession fun s => inStatus_sessional <| sessional_getTenant fun schedule => ?_
  refine advance_sessional (copies_self s) (fun s' hst hterms => ?_) done_sessional
  exact ⟨hterms, (if_pos hst).symm, by rw [hst]; rfl, by rw [hst]; rfl, by rw [hst]; simp; rfl⟩

theorem validateAndRoutePayment_sessional : Sessional tables (rulesFor A) s₀ h (validateAndRoutePayment tenantID) := by
  refine sessional_getSession fun s => inStatus_sessional ?_
  split
  · exact handleMismatch_sessional (by decide)
  split
  · exact handleMismatch_sessional (by decide)
  · exact initiateCredit_sessional tenantID

theorem routeAfterCredit_sessional : Sessional tables (rulesFor A) s₀ h (routeAfterCredit tenantID) := by
  refine sessional_getSession fun s => ?_
  have hhold : Sessional tables (rulesFor A) s .loaded (holdSession s) :=
    inStatus_sessional (advance_noticed (copies_self s) (by decide) (fun _ => ⟨rfl, rfl, rfl, rfl⟩) done_sessional)
  split
  · refine inStatus_sessional (advance_sessional (copies_self s) (fun s' hst hterms => ?_) done_sessional)
    exact ⟨hterms, by rw [hst]; rfl, (if_pos hst).symm, by rw [hst]; rfl, by rw [hst]; simp; rfl⟩
  · exact hhold
  · exact hhold

theorem received_sessional (s : BankDepositSession) (credit : IncomingBankCredit) :
    Sessional tables (rulesFor A) s (.recorded (newDepositTx s credit)) (afterRecord tenantID s credit) := by
  unfold afterRecord
  split
  · exact sessional_ret _
  -- the payment is counted into the copy as well
  · exact advance_noticed ⟨rfl, rfl, rfl, rfl, rfl⟩ (by decide) (fun s' => notices_received credit _ s')
      fun _ => validateAndRoutePayment_sessional tenantID

theorem creditReceived_sessional {credit : IncomingBankCredit} (hcredit : A credit) :
    Sessional tables (rulesFor A) s₀ h (handleBankCreditReceived tenantID credit) := by
  refine sessional_getSession fun s => ?_
  have hpay : (rulesFor A).Pays s (newDepositTx s credit) := ⟨credit, hcredit, rfl⟩
  refine sessional_findTx hpay fun found => ?_
  split
  · exact sessional_ret _
  · exact sessional_recordTx hpay (received_sessional tenantID s credit)

theorem creditResult_sessional (res : Result) : Sessional tables (rulesFor A) s₀ h (handleCreditResult tenantID res) := by
  refine sessional_getSession fun s => inStatus_sessional ?_
  split
  · exact failSession_sessional ⟨rfl, rfl, rfl, (add_zero _).symm, rfl⟩
  · refine sessional_getTenant fun schedule => ?_
    exact advance_noticed ⟨rfl, rfl, rfl, (add_zero _).symm, rfl⟩ (by decide) (fun _ => ⟨rfl, rfl, rfl, rfl⟩)
      fun _ => routeAfterCredit_sessional tenantID

theorem settlementResult_sessional (res : Result) :
    Sessional tables (rulesFor A) s₀ h (handleSettlementResult tenantID res) := by
  refine sessional_getSession fun s => inStatus_sessional ?_
  split
  · exact failSession_sessional ⟨rfl, rfl, rfl, (add_zero _).symm, rfl⟩
  · exact advance_noticed ⟨rfl, rfl, rfl, (add_zero _).symm, rfl⟩ (by decide) (fun _ => ⟨rfl, rfl, rfl, rfl⟩)
      done_sessional

theorem expireSession_sessional : Sessional tables (rulesFor A) s₀ h (expireSession tenantID) := by
  refine sessional_getSession fun s => ?_
  split
  · exact sessional_ret _
  · exact advance_recycling (.inl rfl)

theorem cancelSession_sessional : Sessional tables (rulesFor A) s₀ h (cancelSession tenantID) :=
  sessional_getSession fun _ => inStatus_sessional (advance_recycling (.inr rfl))

end

/-- **A call records and writes only what the rules allow.** -/
theorem program_sessional {A : IncomingBankCredit → Prop} (c : SessionCall Call)
    (hc : ∀ credit, c.call = .handleBankCreditReceived credit → A credit)
    {s₀ : BankDepositSession} {h : Held BankDepositTransaction} :
    Sessional tables (rulesFor A) s₀ h (program c) := by
  obtain ⟨tenantID, c⟩ := c
  cases c with
  | handleBankCreditReceived credit => exact creditReceived_sessional tenantID (hc credit rfl)
  | handleCreditResult res => exact creditResult_sessional tenantID res
  | handleSettlementResult res => exact settlementResult_sessional tenantID res
  | expireSession => exact expireSession_sessional tenantID
  | cancelSession => exact cancelSession_sessional tenantID

theorem program_pos (c : SessionCall Call) : (program c).pos = .before .getSession := by
  obtain ⟨tenantID, c⟩ := c
  cases c <;> rfl

/-- The amounts of bank deposits, which the columns keep as they are. -/
def amounts : SessionAmounts tables rules where
  id := (·.id)
  received := (·.receivedAmount)
  session := (·.sessionID)
  amount := (·.amount)
  stored r := r
  Received _ := True
  Payment _ := True
  id_accumulate _ _ := rfl
  version_accumulate _ _ := rfl
  received_accumulate _ _ := rfl
  id_update _ _ := rfl
  version_update _ _ := rfl
  received_update _ _ := rfl
  session_insert _ := rfl
  amount_insert _ := rfl
  stored_received _ _ := rfl
  stored_add _ _ _ _ := ⟨rfl, trivial⟩
  pays s t h := by
    obtain ⟨credit, rfl⟩ := h
    exact ⟨rfl, trivial⟩
  edge _ _ _ _ h := h.2

theorem program_any (c : SessionCall Call) : Sessional tables (rulesFor fun _ => True) default .loaded (program c) :=
  program_sessional c fun _ _ => trivial

theorem program_follows (c : SessionCall Call) : (program c).Follows (SessionDoes tables rules) :=
  ((program_any c).mono (rulesFor_le _)).1

end Settla.BankDeposit

namespace Settla.Core

def sampleBankSession : BankDepositSession :=
  ⟨7, 1, "", .pendingPayment, 1, "partner", "account", .temporary, "GBP", 100, 0, 1000, 0, 0, 0, .accept, .hold,
    none, "", "", "", .text "", ""⟩

def sampleCredit (bankReference : String) (amount : ℕ) : IncomingBankCredit :=
  ⟨amount, "GBP", "payer", "payer account", "", bankReference⟩

end Settla.Core
