import Settla.Proof.Advance

/-!
# The end of a transfer

A status never comes back, so a transfer changes a few times only. Wherever it stands, a few calls complete or refund
it.
-/

namespace Settla.Core

open Lib List Lib.Optimistic

/-- The calls complete or refund the transfer, where the tenant is found. -/
def Ends (t : Transfer) (calls : List EngineCall) : Prop :=
  ∀ entries, ∃ t', (t'.status = .completed ∨ t'.status = .refunded) ∧
    (run (Store.after t.id) (Store.holding t entries)
      (calls.map (⟨t.tenantID, ⟨fun _ _ => none, fun _ => some ""⟩, ·⟩))).transfers t.id = some t'

variable {t : Transfer}

theorem Ends.cons {c : EngineCall} {st : TransferStatus} {calls : List EngineCall}
    (hplan : ∃ es, c.plan ⟨fun _ _ => none, fun _ => some ""⟩ t = .transition st es)
    (h : Ends (t.advance st) calls) : Ends t (c :: calls) := by
  intro entries
  obtain ⟨es, hplan⟩ := hplan
  have hrow : (Store.holding t entries).transfers t.id = some t := by simp [Store.holding]
  obtain ⟨t', hend, ht'⟩ := h (entries ++ es)
  refine ⟨t', hend, ?_⟩
  rw [map_cons, run_cons, Store.after, call_of_plan hrow rfl hplan]
  unfold Store.holding at ht' ⊢
  rw [Function.update_idem]
  exact ht'

end Settla.Core
