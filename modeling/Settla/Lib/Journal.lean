import Mathlib.Algebra.Order.BigOperators.Group.List
import Mathlib.Data.List.Induction

/-!
# Journals that apply an entry once

A journal drops an entry whose key it has already seen, so it keeps every key delivered once, whatever
the order. `repeats` are the deliveries it drops.
-/

namespace Lib

open List

variable {ε κ : Type*} [DecidableEq κ] (key : ε → κ)

def applyOnce (l : List ε) (e : ε) : List ε := if key e ∈ l.map key then l else l ++ [e]

variable (es : List ε)

def journal : List ε := es.foldl (applyOnce key) []

theorem journal_snoc (e : ε) : journal key (es ++ [e]) = applyOnce key (journal key es) e := by
  simp [journal]

theorem mem_journal {es : List ε} {e : ε} (h : e ∈ journal key es) : e ∈ es := by
  induction es using List.reverseRecOn with
  | nil => cases h
  | append_singleton es x ih =>
    rw [journal_snoc, applyOnce] at h
    split at h
    · exact mem_append_left _ (ih h)
    · rcases mem_append.1 h with h | h
      · exact mem_append_left _ (ih h)
      · exact mem_append_right _ h

theorem exists_mem_journal {es : List ε} {e : ε} (h : e ∈ es) : ∃ e' ∈ journal key es, key e' = key e := by
  induction es using List.reverseRecOn with
  | nil => cases h
  | append_singleton es x ih =>
    rw [journal_snoc, applyOnce]
    rcases mem_append.1 h with h | h
    · obtain ⟨e', he', hkey⟩ := ih h
      split
      · exact ⟨e', he', hkey⟩
      · exact ⟨e', mem_append_left _ he', hkey⟩
    · rw [mem_singleton.1 h]
      split
      · rename_i hmem
        exact mem_map.1 hmem
      · exact ⟨x, mem_append_right _ mem_cons_self, rfl⟩

/-- The entries whose key has been seen, or comes earlier in the list. -/
def repeatsAfter (seen : List κ) : List ε → List ε
  | [] => []
  | e :: es => if key e ∈ seen then e :: repeatsAfter seen es else repeatsAfter (key e :: seen) es

def repeats : List ε := repeatsAfter key [] es

theorem foldl_applyOnce_perm {l : List ε} {seen : List κ} (hseen : ∀ k, k ∈ seen ↔ k ∈ l.map key) (es : List ε) :
    (es.foldl (applyOnce key) l ++ repeatsAfter key seen es).Perm (l ++ es) := by
  induction es generalizing l seen with
  | nil => simp [repeatsAfter]
  | cons e es ih =>
    rw [foldl_cons, repeatsAfter, applyOnce]
    by_cases h : key e ∈ seen
    · rw [if_pos h, if_pos ((hseen _).1 h)]
      have hswap : (es.foldl (applyOnce key) l ++ e :: repeatsAfter key seen es).Perm
          (e :: (es.foldl (applyOnce key) l ++ repeatsAfter key seen es)) := perm_middle
      exact hswap.trans (((ih hseen).cons e).trans perm_middle.symm)
    · rw [if_neg h, if_neg fun hmem => h ((hseen _).2 hmem)]
      have hseen' : ∀ k, k ∈ key e :: seen ↔ k ∈ (l ++ [e]).map key := by
        intro k
        rw [map_append, mem_append, ← hseen k, mem_cons, map_singleton, mem_singleton, or_comm]
      have hperm := ih hseen'
      rwa [append_assoc, singleton_append] at hperm

/-- **A journal keeps all deliveries but the repeated ones.** -/
theorem journal_perm : (journal key es ++ repeats key es).Perm es :=
  foldl_applyOnce_perm key (by simp) es

theorem foldl_applyOnce_sublist (l es : List ε) : (es.foldl (applyOnce key) l).Sublist (l ++ es) := by
  induction es generalizing l with
  | nil => simp
  | cons e es ih =>
    rw [foldl_cons, applyOnce]
    split
    · exact (ih l).trans ((List.Sublist.refl l).append (sublist_cons_self e es))
    · have hsub := ih (l ++ [e])
      rwa [append_assoc, singleton_append] at hsub

theorem sum_map_pos {α : Type*} [AddCommMonoid α] [PartialOrder α] [IsOrderedAddMonoid α] {l : List ε} {f : ε → α}
    (hf : ∀ e ∈ l, 0 ≤ f e) {e : ε} (he : e ∈ l) (hpos : 0 < f e) : 0 < (l.map f).sum := by
  have hall : ∀ x ∈ l.map f, 0 ≤ x := by
    intro x hx
    obtain ⟨y, hy, rfl⟩ := mem_map.1 hx
    exact hf y hy
  exact hpos.trans_le (single_le_sum hall _ (mem_map_of_mem he))

end Lib
