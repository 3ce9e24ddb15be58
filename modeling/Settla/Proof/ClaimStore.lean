import Settla.Node.ClaimStore

/-!
# Do the two stores agree?

In memory a claim that failed or is stuck can be claimed again; in the table every row keeps its slot.
The table keeps a final status and refuses an external ID that another row of the provider has; the memory takes
every update, also one for a slot nobody claimed. A switch of the route frees the slot in memory only.
-/

namespace Settla.Node.ClaimStore

open Lib List

variable (tenantOf : UUID → UUID)

/-- Every transaction is recorded in both stores with the same status, or in none. -/
def Same (s : Stores) : Prop := ∀ slot, (s.memory slot).map (·.status) = (s.table.find (tenantOf slot.1) slot).map (·.tx.status)

/-- A call returns the same from both stores and leaves the same in them. -/
def Agree (s : Stores) (c : Call) : Prop :=
  (s.memory.call c).1 = (s.table.call tenantOf c).1 ∧ Same tenantOf (s.call tenantOf c)

/-- The table takes an update: the row is not final, and no other row of its provider has the external ID. -/
def Table.Takes (t : Table) (slot : Slot) (tx old : ProviderTx) : Prop :=
  old.terminal = false ∧ Table.Unique (t.map (Row.update slot tx))

instance (t : Table) (slot : Slot) (tx old : ProviderTx) : Decidable (t.Takes slot tx old) :=
  inferInstanceAs (Decidable (_ ∧ _))

/-- Claims of slots that are free, done or pending, updates that the table takes or that repeat the status, and no
switch of the route of a slot that is recorded. -/
def Orderly (s : Stores) : Call → Prop
  | .claim slot _ => ∀ tx, s.memory slot = some tx → tx.status ∈ ["completed", "confirmed", "pending"]
  | .update slot tx => ∃ old, s.memory slot = some old ∧ (s.table.Takes slot tx old ∨ tx.status = old.status)
  | .delete _ => True
  | .switchRoute slot _ _ => s.memory slot = none

variable {tenantOf} {s : Stores} {slot : Slot}

section Rows

variable {t : Table} {tenantID : UUID} {k : Slot}

theorem find_update (slot : Slot) (tx : ProviderTx) :
    (t.update slot tx).find tenantID k = (t.find tenantID k).map fun r =>
      if k = slot ∧ t.Takes slot tx r.tx then { r with tx := tx } else r := by
  have hkeys : ∀ r : Row, (r.update slot tx).tenantID = r.tenantID ∧ (r.update slot tx).slot = r.slot := by
    intro r
    unfold Row.update
    split <;> exact ⟨rfl, rfl⟩
  unfold Table.update
  simp only [Table.Takes]
  split
  · rename_i hunique
    have hfind : Table.find (t.map (Row.update slot tx)) tenantID k = (t.find tenantID k).map (Row.update slot tx) := by
      simp [Table.find, find?_map, Function.comp_def, hkeys]
    rw [hfind]
    refine Option.map_congr fun r hr => ?_
    have hkey : r.tenantID = tenantID ∧ r.slot = k := by simpa using find?_some hr
    simp [Row.update, hkey, hunique]
  · rename_i hunique
    simp [hunique]

theorem find_delete (slot : Slot) :
    (t.delete slot).find tenantID k = if k = slot then none else t.find tenantID k := by
  unfold Table.find Table.delete
  rw [find?_filter]
  split
  · rename_i hk
    simp +contextual [hk]
  · rename_i hk
    congr
    funext r
    by_cases hr : r.slot = k <;> simp [hr, hk]

theorem find_append (r : Row) :
    Table.find (t ++ [r]) tenantID k =
      (t.find tenantID k).or (if r.tenantID = tenantID ∧ r.slot = k then some r else none) := by
  simp [Table.find, find?_append, find?_singleton]

end Rows

/-- The statuses stay the same exactly if they do in the slot of the call. -/
theorem same_update_iff (hs : Same tenantOf s) {tx : Option ProviderTx} {t : Table}
    (ht : ∀ k ≠ slot, t.find (tenantOf k.1) k = s.table.find (tenantOf k.1) k) :
    Same tenantOf ⟨Function.update s.memory slot tx, t⟩ ↔
      tx.map (·.status) = (t.find (tenantOf slot.1) slot).map (·.tx.status) := by
  constructor
  · intro h
    simpa using h slot
  · intro h k
    by_cases hk : k = slot
    · subst hk
      simpa using h
    · simpa [hk, ht k hk] using hs k

theorem claim_agrees_iff (hs : Same tenantOf s) (slot : Slot) (provider : String) :
    Agree tenantOf s (.claim slot provider) ↔ Orderly s (.claim slot provider) := by
  have hslot := hs slot
  unfold Agree
  simp only [Memory.call, Table.call, Memory.claim, Table.claim, Stores.call, Orderly, Option.some.injEq]
  cases hmem : s.memory slot with
  | none =>
    rw [hmem, Option.map_none, eq_comm, Option.map_eq_none_iff] at hslot
    simp only [hslot, reduceCtorEq, false_implies, implies_true, iff_true, true_and]
    refine (same_update_iff hs fun k hk => ?_).2 ?_
    · rw [find_append, if_neg fun h => hk h.2.symm, Option.or_none]
    · rw [find_append, hslot, if_pos ⟨rfl, rfl⟩]
      rfl
  | some tx =>
    obtain ⟨row, hrow⟩ : ∃ row, s.table.find (tenantOf slot.1) slot = some row := by
      rw [← Option.isSome_iff_exists, ← Option.isSome_map (f := (·.tx.status)), ← hslot, hmem]; rfl
    by_cases hheld : tx.status ∈ ["completed", "confirmed", "pending"]
    · rw [hrow]
      simp only [hheld, if_true, true_and, Option.some.injEq, forall_eq', iff_true]
      exact hs
    · -- the table refuses what the memory gives away
      rw [hrow]
      simp only [hheld, if_false, Option.some.injEq, forall_eq', Bool.true_eq_false, false_and]

theorem update_agrees_iff (hs : Same tenantOf s) (slot : Slot) (tx : ProviderTx) :
    Agree tenantOf s (.update slot tx) ↔ Orderly s (.update slot tx) := by
  have hslot := hs slot
  have hother : ∀ k ≠ slot, (s.table.update slot tx).find (tenantOf k.1) k = s.table.find (tenantOf k.1) k := by
    intro k hk
    simp [find_update, hk]
  have hsame : Same tenantOf (s.call tenantOf (.update slot tx)) ↔ _ := same_update_iff hs hother
  unfold Agree
  rw [hsame]
  simp only [Memory.call, Table.call, true_and, Orderly, Table.Takes]
  cases hrow : s.table.find (tenantOf slot.1) slot with
  | none =>
    rw [hrow, Option.map_none, Option.map_eq_none_iff] at hslot
    simp [find_update, hrow, hslot]
  | some row =>
    rw [hrow] at hslot
    obtain ⟨old, hold, hstatus⟩ := Option.map_eq_some_iff.1 hslot
    have hterm : old.terminal = row.tx.terminal := by unfold ProviderTx.terminal; rw [hstatus]
    simp only [hold, Option.some.injEq, exists_eq_left', hterm, hstatus, find_update, hrow, Option.map_some, true_and,
      Table.Takes]
    split
    · rename_i h; simp [h]
    · rename_i h; simp [h]

theorem call_agrees_iff (hs : Same tenantOf s) (c : Call) : Agree tenantOf s c ↔ Orderly s c := by
  cases c with
  | claim slot provider => exact claim_agrees_iff hs slot provider
  | update slot tx => exact update_agrees_iff hs slot tx
  | delete slot =>
    refine iff_of_true ⟨rfl, (same_update_iff hs fun k hk => (find_delete slot).trans (if_neg hk)).2 ?_⟩ trivial
    exact (congrArg (Option.map _) ((find_delete slot).trans (if_pos rfl))).symm
  | switchRoute slot old new =>
    have hsame : Same tenantOf (s.call tenantOf (.switchRoute slot old new)) ↔ _ := same_update_iff hs fun _ _ => rfl
    refine (and_iff_right rfl).trans (hsame.trans ?_)
    simp only [Table.call, Table.switchRoute, updateTransferRoute_refused, ← hs slot, Option.map_none, Orderly]
    rw [eq_comm, Option.map_eq_none_iff]

/-- **The stores agree on every call exactly if every call is orderly.** -/
theorem stores_agree_iff (tenantOf : UUID → UUID) (calls : List Call) :
    Along (Stores.call tenantOf) (Agree tenantOf) {} calls ↔ Along (Stores.call tenantOf) Orderly {} calls :=
  along_congr (P := Same tenantOf) (fun _ c hs => call_agrees_iff hs c) (fun _ _ _ h => h.2) (fun _ => rfl) calls

/-- **A claim after a failure**: the memory gives the slot away again, the table does not. -/
theorem reclaim_differs :
    let s := run (Stores.call id) {} [.claim (1, .onRamp) "p", .update (1, .onRamp) failedTx]
    (s.memory.call (.claim (1, .onRamp) "p")).1 = some true ∧
      (s.table.call id (.claim (1, .onRamp) "p")).1 = some false := by
  decide

end Settla.Node.ClaimStore
