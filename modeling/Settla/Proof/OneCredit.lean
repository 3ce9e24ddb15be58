import Settla.Proof.BankDeposit
import Settla.Proof.Deposit

/-!
# One credit, or a refund

A late payment reopens a session that has expired or been cancelled, but no way leads back from CREDITING,
SETTLING or a mismatch, and intents are written only with the step to these. So each intent is written
once at most, and a bank session that refunds does not credit.
-/

namespace Settla.Core

open List

theorem once_append {α : Type} {xs ys : List α} {p : Prop} [Decidable p] {y : α} (hxs : xs.length ≤ 1)
    (hnone : p → xs = []) (hys : ys = if p then [y] else []) : (xs ++ ys).length ≤ 1 := by
  by_cases hp : p
  · rw [hys, if_pos hp, hnone hp]
    exact Nat.le_refl _
  · rw [hys, if_neg hp, append_nil]
    exact hxs

end Settla.Core

namespace Settla.Deposit

open Settla.Core List

def uncredited : List DepositSessionStatus := [.pendingPayment, .detected, .confirmed, .expired, .cancelled]

def unsettled : List DepositSessionStatus := uncredited ++ [.crediting, .credited]

structure Issued (status : DepositSessionStatus) (log : List DepositEntry) : Prop where
  credit : (credits log).length ≤ 1
  settle : (settles log).length ≤ 1
  uncredited : status ∈ uncredited → credits log = []
  unsettled : status ∈ unsettled → settles log = []

theorem no_return {st st' : DepositSessionStatus} (h : st' ∈ validDepositTransitions st) :
    (st' ∈ uncredited ∨ st' = .crediting → st ∈ uncredited) ∧ (st' ∈ unsettled ∨ st' = .settling → st ∈ unsettled) := by
  revert h
  cases st <;> cases st' <;> decide

theorem moves_valid (c : Call) : ∀ m ∈ c.moves, m.2 ∈ validDepositTransitions m.1 := by
  cases c <;> simp only [Call.moves] <;> decide

def statuses : SessionStatuses tables (rules.and Settles) DepositSessionStatus where
  status := (·.status)
  status_accumulate _ _ := rfl
  version_accumulate := amounts.version_accumulate
  status_update _ _ := rfl
  version_update := amounts.version_update
  edge s h s' es hedge := by
    obtain ⟨⟨c, -, -, -, hv, -⟩, -⟩ := hedge
    exact hv

variable {h : Held DepositTransaction}

theorem edge_valid {s s' : DepositSession} {es : List DepositEntry}
    (hedge : (rules.and Settles).Edge s h s' es) : s'.status ∈ validDepositTransitions s.status := by
  obtain ⟨⟨c, hmove, -⟩, -⟩ := hedge
  exact moves_valid c _ hmove

/-- **An edge issues its intent at most once.** -/
theorem Issued.next {s s' : DepositSession} {es log : List DepositEntry}
    (hlog : Issued s.status log) (hedge : (rules.and Settles).Edge s h s' es) : Issued s'.status (log ++ es) := by
  obtain ⟨hcredit, hsettle⟩ := no_return (edge_valid hedge)
  obtain ⟨⟨c, -, -, -, -, -, hcredits⟩, hsettles⟩ := hedge
  have hnone : s'.status = .crediting → credits log = [] := fun h => hlog.uncredited (hcredit (.inr h))
  have hnone' : s'.status = .settling → settles log = [] := fun h => hlog.unsettled (hsettle (.inr h))
  refine ⟨?_, ?_, fun hst => ?_, fun hst => ?_⟩
  · rw [credits_append]
    exact once_append hlog.credit hnone hcredits
  · rw [settles_append]
    exact once_append hlog.settle hnone' hsettles
  · have hne : s'.status ≠ .crediting := by
      revert hst
      cases s'.status <;> decide
    rw [credits_append, hlog.uncredited (hcredit (.inl hst)), hcredits, if_neg hne, append_nil]
  · have hne : s'.status ≠ .settling := by
      revert hst
      cases s'.status <;> decide
    rw [settles_append, hlog.unsettled (hsettle (.inl hst)), hsettles, if_neg hne, append_nil]

theorem program_walks (c : SessionCall Call) : (program c).Follows (SessionDoes tables (rules.and Settles)) := by
  have hle : (rulesFor c.call).Le (rules.and Settles) :=
    ⟨fun _ _ h => ⟨c.call, h⟩, fun _ _ _ _ h => ⟨⟨c.call, h.1⟩, h.2⟩⟩
  have hc : Sessional tables (rulesFor c.call) default .loaded (program c) := program_sessional c
  exact (hc.mono hle).1

/-- A session for which nothing has been asked yet. -/
structure Fresh (db : DB) : Prop where
  status : db.row.status = .pendingPayment
  credits : credits db.outbox = []
  settles : settles db.outbox = []

theorem Fresh.issued {db : DB} (h : Fresh db) : Issued db.row.status db.outbox :=
  ⟨by simp [h.credits], by simp [h.settles], fun _ => h.credits, fun _ => h.settles⟩

end Settla.Deposit

namespace Settla.BankDeposit

open Settla.Core List

def uncredited : List BankDepositSessionStatus := [.pendingPayment, .paymentReceived, .expired, .cancelled]

def unsettled : List BankDepositSessionStatus := uncredited ++ [.crediting, .credited]

structure Issued (status : BankDepositSessionStatus) (log : List BankDepositEntry) : Prop where
  credit : (credits log).length ≤ 1
  settle : (settles log).length ≤ 1
  refund : credits log = [] ∨ refunds log = []
  uncredited : status ∈ uncredited → credits log = [] ∧ refunds log = []
  unsettled : status ∈ unsettled → settles log = []

theorem no_return {st st' : BankDepositSessionStatus} (h : st' ∈ validBankDepositTransitions st) :
    (st' ∈ uncredited ∨ st' = .crediting ∨ st' = .underpaid ∨ st' = .overpaid → st ∈ uncredited) ∧
      (st' ∈ unsettled ∨ st' = .settling → st ∈ unsettled) := by
  revert h
  cases st <;> cases st' <;> decide

def statuses : SessionStatuses tables (rulesFor fun _ => True) BankDepositSessionStatus where
  status := (·.status)
  status_accumulate _ _ := rfl
  version_accumulate := amounts.version_accumulate
  status_update _ _ := rfl
  version_update := amounts.version_update
  edge _ _ _ _ hedge := hedge.1.2.2.1

variable (xs ys : List BankDepositEntry)

theorem credits_append : credits (xs ++ ys) = credits xs ++ credits ys :=
  filterMap_append

theorem settles_append : settles (xs ++ ys) = settles xs ++ settles ys :=
  filterMap_append

theorem refunds_append : refunds (xs ++ ys) = refunds xs ++ refunds ys :=
  filterMap_append

/-- **An edge issues its intent at most once**, and a refund only where there is no credit. -/
theorem Issued.next {s s' : BankDepositSession} {h : Held BankDepositTransaction} {es log : List BankDepositEntry}
    (hlog : Issued s.status log) (hedge : (rulesFor fun _ => True).Edge s h s' es) : Issued s'.status (log ++ es) := by
  obtain ⟨⟨hvalid, -⟩, hintended⟩ := hedge
  obtain ⟨hcredit, hsettle⟩ := no_return hvalid
  have hnone : s'.status = .crediting → credits log = [] := fun h => (hlog.uncredited (hcredit (.inr (.inl h)))).1
  have hnone' : s'.status = .settling → settles log = [] := fun h => hlog.unsettled (hsettle (.inr h))
  refine ⟨?_, ?_, ?_, fun hst => ?_, fun hst => ?_⟩
  · rw [credits_append]
    exact once_append hlog.credit hnone hintended.credits
  · rw [settles_append]
    exact once_append hlog.settle hnone' hintended.settles
  · rw [credits_append, refunds_append, hintended.credits, hintended.refunds]
    by_cases hmismatch : s'.status = .underpaid ∨ s'.status = .overpaid
    · have hne : s'.status ≠ .crediting := by
        rcases hmismatch with h | h <;> rw [h] <;> decide
      rw [(hlog.uncredited (hcredit (.inr (.inr hmismatch)))).1, if_neg hne]
      exact .inl rfl
    by_cases hcrediting : s'.status = .crediting
    · rw [(hlog.uncredited (hcredit (.inr (.inl hcrediting)))).2, if_neg hmismatch]
      exact .inr rfl
    · rw [if_neg hcrediting, if_neg hmismatch, append_nil, append_nil]
      exact hlog.refund
  · obtain ⟨hc, hr⟩ := hlog.uncredited (hcredit (.inl hst))
    have hne : s'.status ≠ .crediting ∧ ¬ (s'.status = .underpaid ∨ s'.status = .overpaid) := by
      revert hst
      cases s'.status <;> decide
    rw [credits_append, refunds_append, hc, hr, hintended.credits, hintended.refunds, if_neg hne.1, if_neg hne.2]
    exact ⟨rfl, rfl⟩
  · have hne : s'.status ≠ .settling := by
      revert hst
      cases s'.status <;> decide
    rw [settles_append, hlog.unsettled (hsettle (.inl hst)), hintended.settles, if_neg hne, append_nil]

/-- A session for which nothing has been asked yet. -/
structure Fresh (db : DB) : Prop where
  status : db.row.status = .pendingPayment
  credits : credits db.outbox = []
  settles : settles db.outbox = []
  refunds : refunds db.outbox = []

theorem Fresh.issued {db : DB} (h : Fresh db) : Issued db.row.status db.outbox :=
  ⟨by simp [h.credits], by simp [h.settles], .inl h.credits, fun _ => ⟨h.credits, h.refunds⟩, fun _ => h.settles⟩

end Settla.BankDeposit

namespace Settla.Core

open Lib Lib.Threads

/-- **At most one credit, never credit and refund.** However the calls on a new session interleave,
repeat, fail and crash: a step leaves the status and the version alone, or makes a change that the
state machine allows; the outbox has at most one credit intent and one settle intent; and for a bank
session not both a credit and a refund. -/
theorem one_credit (db : Deposit.DB) (as : List (Action (SessionCall Deposit.Call) SessionAnswer))
    (bank : BankDeposit.DB) (bs : List (Action (SessionCall BankDeposit.Call) SessionAnswer)) :
    (Deposit.Fresh db →
      let s := run (System.act Deposit.program) (System.init db) as
      (∀ a, let db' := (s.act Deposit.program a).state
        db'.row.status = s.state.row.status ∧ db'.row.version = s.state.row.version ∨
          db'.row.status ∈ validDepositTransitions s.state.row.status ∧ db'.row.version = s.state.row.version + 1) ∧
      (Deposit.credits s.state.outbox).length ≤ 1 ∧ (Deposit.settles s.state.outbox).length ≤ 1) ∧
    (BankDeposit.Fresh bank →
      let s := run (System.act BankDeposit.program) (System.init bank) bs
      (∀ a, let db' := (s.act BankDeposit.program a).state
        db'.row.status = s.state.row.status ∧ db'.row.version = s.state.row.version ∨
          db'.row.status ∈ validBankDepositTransitions s.state.row.status ∧
            db'.row.version = s.state.row.version + 1) ∧
      (BankDeposit.credits s.state.outbox).length ≤ 1 ∧ (BankDeposit.settles s.state.outbox).length ≤ 1 ∧
      (BankDeposit.credits s.state.outbox = [] ∨ BankDeposit.refunds s.state.outbox = [])) := by
  refine ⟨fun hfresh => ?_, fun hfresh => ?_⟩
  · have hissued : Deposit.Issued (Deposit.statuses.status db.row) db.outbox := hfresh.issued
    obtain ⟨hlog, hmoves⟩ := sessions_walk Deposit.program_walks Deposit.program_pos
      (fun s h s' es log hedge (hlog : Deposit.Issued s.status log) => hlog.next hedge) hissued as
    exact ⟨fun a => (hmoves a).valid fun _ _ _ _ hedge => Deposit.edge_valid hedge, hlog.credit, hlog.settle⟩
  · have hissued : BankDeposit.Issued (BankDeposit.statuses.status bank.row) bank.outbox := hfresh.issued
    obtain ⟨hlog, hmoves⟩ := sessions_walk (fun c => (BankDeposit.program_any c).1) BankDeposit.program_pos
      (fun s h s' es log hedge (hlog : BankDeposit.Issued s.status log) => hlog.next hedge) hissued bs
    exact ⟨fun a => (hmoves a).valid fun _ _ _ _ (hedge : (BankDeposit.rulesFor _).Edge _ _ _ _) => hedge.1.1, hlog.credit,
      hlog.settle,
      hlog.refund⟩

def inTurns {C : Type} (first second : C) (n : ℕ) : List (Action (SessionCall C) SessionAnswer) :=
  [.start ⟨1, first⟩, .start ⟨1, second⟩] ++ (List.replicate n [.step 0 {}, .step 1 {}]).flatten

/-- A bank credit that is delivered twice is recorded twice, but credited once. -/
theorem one_credit_delivered_twice :
    let credit := BankDeposit.Call.handleBankCreditReceived (sampleCredit "a" 10)
    let s := run (System.act BankDeposit.program) (System.init ⟨sampleBankSession, [], []⟩) (inTurns credit credit 8)
    s.state.txs.length = 2 ∧ BankDeposit.credits s.state.outbox = [10] ∧
      List.length (BankDeposit.credits s.state.outbox) ≤ 1 := by
  refine ⟨by decide +kernel, by decide +kernel, ?_⟩
  exact ((one_credit ⟨Deposit.sampleSession, [], []⟩ [] ⟨sampleBankSession, [], []⟩ _).2 ⟨rfl, rfl, rfl, rfl⟩).2.1

end Settla.Core
