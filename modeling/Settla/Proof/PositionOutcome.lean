import Settla.Node.PositionEvents
import Settla.Proof.Rebalance

/-!
# The outcome of a position transaction

No event of the treasury worker reaches the position engine, so a transaction stays in processing.
-/

namespace Settla.Rebalance

open Lib Position

/-- What is recorded of a transaction is what happened: it is completed exactly if its amount was applied once,
and failed exactly if it was not applied. -/
def Truthful (s : Desk) (tx : PositionTransaction) : Prop :=
  (tx.status = .completed ↔ s.applied.count tx.id = 1) ∧ (tx.status = .failed ↔ s.applied.count tx.id = 0)

def AllProcessing (o : Office) : Prop := ∀ tx ∈ o.desk.db.txs, tx.status = .processing

theorem deliver_txs (s : Desk) (a : Answer) (reference : UUID) : (s.deliver a reference).db.txs = s.db.txs := by
  unfold Desk.deliver
  split
  · rfl
  · dsimp only
    split <;> rfl

theorem processing_step (o : Office) (i : OfficeStep) (h : AllProcessing o) : AllProcessing (o.step i) := by
  cases i with
  | request type a tenantID req =>
    dsimp only [Office.step]
    split
    · exact h
    · rename_i hreq
      split
      · intro tx htx
        rcases List.mem_append.1 htx with htx | htx
        · exact h tx htx
        · cases List.mem_singleton.1 htx
          cases type <;> simp only [request, requestTopUp, requestWithdrawal] at hreq <;> grind [newTransaction]
      · exact h
  | deliver a error reference =>
    intro tx htx
    rw [Office.step, deliver_txs] at htx
    exact h tx htx
  | event l n =>
    dsimp only [Office.step]
    split <;> exact h
  | activity act => exact h

/-- **No transaction is closed**: after every history of requests, deliveries, events and other activities of the
treasury a transaction is in processing. So its record is true only if the amount was applied more than once. -/
theorem outcome_iff (o : Office) (steps : List OfficeStep) :
    let o' := run Office.step { o with desk := { o.desk with db := ⟨[], []⟩ } } steps
    ∀ tx ∈ o'.desk.db.txs, tx.status = .processing ∧ (Truthful o'.desk tx ↔ 1 < o'.desk.applied.count tx.id) := by
  intro o' tx htx
  have h : tx.status = .processing :=
    run_invariant (P := AllProcessing) processing_step (by simp [AllProcessing]) steps tx htx
  refine ⟨h, ?_⟩
  simp only [Truthful, h, reduceCtorEq, false_iff]
  omega

/-- **A top-up that is credited stays in processing**, with its intent acknowledged and its event handled. -/
theorem topUp_unfinished :
    let o := run Office.step ⟨sampleDesk, ⟨fun _ => none, []⟩, []⟩
      [.request .topUp { id := 7 } 1 ⟨"USD", "crypto:usd", 100, "bank", ""⟩, .deliver {} "" 7,
        .event ⟨fun _ _ => none, fun _ => none⟩ 0]
    o.desk.db.outbox.length = 0 ∧ o.events.length = 0 ∧ o.desk.applied = [7] ∧
      balanceOf o.desk.treasury lowKey = 100000000 ∧ o.desk.db.txs.map (·.status) = [.processing] := by
  decide +kernel

end Settla.Rebalance
