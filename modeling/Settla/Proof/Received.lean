import Settla.Proof.BankDeposit
import Settla.Proof.Deposit

/-!
# The amount received

`RecordDepositTx` adds a payment to the row without a new version, and `TransitionWithOutbox` overwrites
the amount: a call that loaded the session before a payment was recorded takes it out again.
-/

namespace Settla.Core

open Lib Lib.Threads

/-- **The amount received is the sum of the recorded payments**, for crypto and for bank deposits,
as long as a payment is recorded only while no other call carries a copy of the current version. -/
theorem received_is_sum (db : Deposit.DB) (as : List (Action (SessionCall Deposit.Call) SessionAnswer))
    (bank : BankDeposit.DB) (bs : List (Action (SessionCall BankDeposit.Call) SessionAnswer)) :
    (0 ≤ db.row.receivedAmount → numeric8 db.row.receivedAmount = db.row.receivedAmount →
      db.row.receivedAmount = ((Deposit.recorded db).map (·.amount)).sum →
      Meets Deposit.program (sessionTally Deposit.amounts db.row.id).alone (System.init db) as →
      let db' := (run (System.act Deposit.program) (System.init db) as).state
      db'.row.receivedAmount = ((Deposit.recorded db').map (·.amount)).sum) ∧
    (bank.row.receivedAmount = ((BankDeposit.recorded bank).map (·.amount)).sum →
      Meets BankDeposit.program (sessionTally BankDeposit.amounts bank.row.id).alone (System.init bank) bs →
      let bank' := (run (System.act BankDeposit.program) (System.init bank) bs).state
      bank'.row.receivedAmount = ((BankDeposit.recorded bank').map (·.amount)).sum) := by
  refine ⟨fun hnonneg hgrid hsum has => ?_, fun hsum hbs => ?_⟩
  · have hbalanced : Deposit.amounts.Balanced db := hsum
    have hreceived : Deposit.amounts.Received db.row.receivedAmount := ⟨hnonneg, hgrid⟩
    exact sessions_balanced Deposit.program_follows Deposit.program_pos rfl hreceived hbalanced has
  · have hbalanced : BankDeposit.amounts.Balanced bank := hsum
    exact sessions_balanced BankDeposit.program_follows BankDeposit.program_pos rfl trivial hbalanced hbs

def inTurn {C : Type} (first second : C) : List (Action (SessionCall C) SessionAnswer) :=
  [.start ⟨1, first⟩, .step 0 {}, .step 0 {}, .step 0 {}, .step 0 {},
    .start ⟨1, second⟩, .step 1 {}, .step 1 {}, .step 1 {}]

theorem received_is_sum_inTurn :
    (let as := inTurn (.handleTransactionDetected (Deposit.sampleTx "a" 10))
        (.handleTransactionDetected (Deposit.sampleTx "b" 5))
      let db := (run (System.act Deposit.program) (System.init ⟨Deposit.sampleSession, [], []⟩) as).state
      db.row.receivedAmount = 15 ∧ db.row.receivedAmount = ((Deposit.recorded db).map (·.amount)).sum) ∧
    (let as := inTurn (.handleBankCreditReceived (sampleCredit "a" 10)) (.handleBankCreditReceived (sampleCredit "b" 5))
      let db := (run (System.act BankDeposit.program) (System.init ⟨sampleBankSession, [], []⟩) as).state
      db.row.receivedAmount = 15 ∧ db.row.receivedAmount = ((BankDeposit.recorded db).map (·.amount)).sum) := by
  refine ⟨⟨by decide +kernel, ?_⟩, by decide +kernel, ?_⟩
  · exact (received_is_sum _ _ ⟨sampleBankSession, [], []⟩ []).1 (by decide +kernel) (by decide +kernel)
      (by decide +kernel) (by decide +kernel)
  · exact (received_is_sum ⟨Deposit.sampleSession, [], []⟩ [] _ _).2 (by decide +kernel) (by decide +kernel)

def atOnce {C : Type} (first second : C) : List (Action (SessionCall C) SessionAnswer) :=
  [.start ⟨1, first⟩, .start ⟨1, second⟩, .step 0 {}, .step 1 {}, .step 0 {}, .step 1 {},
    .step 0 {}, .step 1 {}, .step 0 {}, .step 1 {}, .step 0 {}, .step 0 {}, .step 0 {}, .step 0 {}]

/-- **A payment can be lost.** Of two recorded at the same time, the first call to write takes the
other out of the amount. -/
theorem received_lost :
    (let as := atOnce (.handleTransactionDetected (Deposit.sampleTx "a" 10))
        (.handleTransactionDetected (Deposit.sampleTx "b" 5))
      let s := run (System.act Deposit.program) (System.init ⟨Deposit.sampleSession, [], []⟩) as
      s.positions.all Pos.ended ∧ s.state.row.receivedAmount = 10 ∧
        ((Deposit.recorded s.state).map (·.amount)).sum = 15) ∧
    (let as := atOnce (.handleBankCreditReceived (sampleCredit "a" 10)) (.handleBankCreditReceived (sampleCredit "b" 5))
      let s := run (System.act BankDeposit.program) (System.init ⟨sampleBankSession, [], []⟩) as
      s.positions.all Pos.ended ∧ s.state.row.receivedAmount = 10 ∧
        ((BankDeposit.recorded s.state).map (·.amount)).sum = 15) := by
  refine ⟨⟨?_, ?_, ?_⟩, ?_, ?_, ?_⟩ <;> decide +kernel

end Settla.Core
