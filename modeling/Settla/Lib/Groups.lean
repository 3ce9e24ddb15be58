import Mathlib.Algebra.BigOperators.Group.List.Basic
import Mathlib.Algebra.Order.Ring.Int
import Mathlib.Tactic.Abel

/-!
# Sums by group

`groupSum` is the sum over the entries with one key, `restSum` that over the others.
-/

namespace Lib

open List

variable {α κ M : Type*} [DecidableEq κ] [AddCommGroup M] (key : α → κ) (f : α → M)

def groupSum (k : κ) (l : List α) : M := ((l.filter fun x => key x = k).map f).sum

def restSum (k : κ) (l : List α) : M := ((l.filter fun x => key x ≠ k).map f).sum

theorem groupSum_add_restSum (k : κ) (l : List α) : groupSum key f k l + restSum key f k l = (l.map f).sum := by
  induction l with
  | nil => exact add_zero 0
  | cons x l ih =>
    simp only [groupSum, restSum, ne_eq, decide_not] at ih ⊢
    by_cases hx : key x = k
    · simp only [hx, decide_true, filter_cons_of_pos, map_cons, sum_cons, Bool.not_true,
        Bool.false_eq_true, not_false_eq_true, filter_cons_of_neg, ← ih, add_assoc]
    · simp only [hx, decide_false, Bool.false_eq_true, not_false_eq_true, filter_cons_of_neg, Bool.not_false,
        filter_cons_of_pos, map_cons, sum_cons, ← ih]
      abel

variable {key f}

theorem groupSum_filter_ne (k k' : κ) (l : List α) :
    groupSum key f k' (l.filter fun x => key x ≠ k) = if k' = k then 0 else groupSum key f k' l := by
  unfold groupSum
  rw [filter_filter]
  split
  · rename_i heq
    subst heq
    simp
  · rename_i hne
    congr 2
    apply filter_congr
    intro x _
    by_cases hx : key x = k'
    · simp [hx, hne]
    · simp [hx]

theorem groups_induction {P : List α → Prop} (nil : P [])
    (group : ∀ k l, P (l.filter fun x => key x ≠ k) → P l) (l : List α) : P l := by
  -- take out the group of the first entry; what remains is shorter
  induction hn : l.length using Nat.strong_induction_on generalizing l with
  | _ n ih =>
    cases l with
    | nil => exact nil
    | cons x l =>
      have hshort : ((x :: l).filter fun y => key y ≠ key x).length < n := by
        rw [← hn]
        exact length_filter_lt_length_iff_exists.2 ⟨x, mem_cons_self, by simp⟩
      exact group (key x) (x :: l) (ih _ hshort _ rfl)

variable {l : List α}

/-- **Sums of zero by group make a sum of zero.** -/
theorem sum_eq_zero_of_groups (h : ∀ k, groupSum key f k l = 0) : (l.map f).sum = 0 := by
  induction l using @groups_induction _ _ _ key with
  | nil => rfl
  | group k l ih =>
    have hrest : restSum key f k l = 0 := by
      refine ih fun k' => ?_
      rw [groupSum_filter_ne, h k']
      exact ite_self 0
    rw [← groupSum_add_restSum key f k l, h k, hrest, add_zero]

omit [DecidableEq κ] in
theorem sum_filter_single {f' : α → M} {x : α} {p : α → Prop} [DecidablePred p] {c : Prop} [Decidable c]
    (hnd : l.Nodup) (hc : c ↔ x ∈ l ∧ p x) (h : ∀ y ∈ l, y ≠ x → f' y = f y) :
    ((l.filter p).map f').sum = ((l.filter p).map f).sum + if c then f' x - f x else 0 := by
  classical
  rw [if_congr hc rfl rfl]
  clear hc
  induction l with
  | nil => simp
  | cons y l ih =>
    obtain ⟨hy, hnd⟩ := nodup_cons.1 hnd
    have ih := ih hnd fun z hz => h z (mem_cons_of_mem y hz)
    by_cases hxy : y = x
    · subst hxy
      rw [if_neg fun hc => hy hc.1, add_zero] at ih
      by_cases hp : p y
      · simp [hp, ih]
        abel
      · simp [hp, ih]
    · have hyx := h y mem_cons_self hxy
      by_cases hp : p y <;> simp [hp, ih, hyx, Ne.symm hxy, add_assoc]

variable [LinearOrder M] [IsOrderedAddMonoid M]

omit [IsOrderedAddMonoid M] in
theorem groups_nonneg_filter_ne (h : ∀ k, 0 ≤ groupSum key f k l) (k k' : κ) :
    0 ≤ groupSum key f k' (l.filter fun x => key x ≠ k) := by
  rw [groupSum_filter_ne]
  split
  · exact le_refl 0
  · exact h k'

theorem sum_nonneg_of_groups (h : ∀ k, 0 ≤ groupSum key f k l) : 0 ≤ (l.map f).sum := by
  induction l using @groups_induction _ _ _ key with
  | nil => exact le_refl 0
  | group k l ih =>
    have hrest : 0 ≤ restSum key f k l := ih (groups_nonneg_filter_ne h k)
    rw [← groupSum_add_restSum key f k l]
    exact add_nonneg (h k) hrest

/-- **No group exceeds the whole.** -/
theorem groupSum_le_sum (h : ∀ k, 0 ≤ groupSum key f k l) (k : κ) : groupSum key f k l ≤ (l.map f).sum := by
  have hrest : 0 ≤ restSum key f k l := sum_nonneg_of_groups (groups_nonneg_filter_ne h k)
  rw [← groupSum_add_restSum key f k l]
  exact le_add_of_nonneg_right hrest

end Lib
