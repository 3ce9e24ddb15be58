import Mathlib.Data.List.Nodup

/-!
# Linked chains, each applied once

A store takes events in batches. A chain of linked events is applied as a whole or not at all, and
an event whose id is known is not applied again.
-/

namespace Lib

open List

structure Events (τ κ : Type*) where
  id : τ → κ
  (linked refused : τ → Bool)

variable {τ κ : Type*} (E : Events τ κ)

namespace Events

def chains : List τ → List (List τ)
  | [] => []
  | t :: ts =>
    match E.linked t, chains ts with
    | true, c :: cs => (t :: c) :: cs
    | _, cs => [t] :: cs

/-- Every event but the last is linked. -/
def IsChain (ts : List τ) : Prop :=
  ∃ init last, ts = init ++ [last] ∧ (∀ t ∈ init, E.linked t = true) ∧ E.linked last = false

variable [DecidableEq κ]

/-- All its ids are new, none of its events is refused, and it does not end in a link. -/
def Accepts (store chain : List τ) : Prop :=
  (∀ t ∈ chain, E.id t ∉ store.map E.id ∧ E.refused t = false) ∧ (chain.map E.id).Nodup ∧
    ∀ t ∈ chain.getLast?, E.linked t = false

instance (store chain : List τ) : Decidable (E.Accepts store chain) := inferInstanceAs (Decidable (_ ∧ _ ∧ _))

def apply (store chain : List τ) : List τ := if E.Accepts store chain then store ++ chain else store

def create (store batch : List τ) : List τ := (E.chains batch).foldl E.apply store

end Events

variable {E} {store ts : List τ}

theorem chains_append (h : E.IsChain ts) (rest : List τ) : E.chains (ts ++ rest) = ts :: E.chains rest := by
  obtain ⟨init, last, rfl, hinit, hlast⟩ := h
  induction init with
  | nil => simp [Events.chains, hlast]
  | cons t init ih =>
    have hrest := ih fun x hx => hinit x (mem_cons_of_mem t hx)
    have ht : E.linked t = true := hinit t mem_cons_self
    rw [cons_append, cons_append, Events.chains, hrest, ht]

variable [DecidableEq κ]

theorem create_append (h : E.IsChain ts) (store rest : List τ) :
    E.create store (ts ++ rest) = E.create (E.apply store ts) rest := by
  rw [Events.create, chains_append h, foldl_cons, Events.create]

/-- **A chain is applied once**, however often it is sent. -/
theorem apply_idem (store ts : List τ) : E.apply (E.apply store ts) ts = E.apply store ts := by
  by_cases h : E.Accepts store ts
  case neg =>
    have hstore : E.apply store ts = store := if_neg h
    rw [hstore, hstore]
  have hstore : E.apply store ts = store ++ ts := if_pos h
  rw [hstore, Events.apply]
  split
  · rename_i hagain
    -- its ids are known now, so it has none
    have hempty : ts = [] := by
      rcases ts with _ | ⟨t, ts⟩
      · rfl
      · have hnew := (hagain.1 t mem_cons_self).1
        simp at hnew
    rw [hempty, append_nil]
  · rfl

/-- **A chain of new events** is applied, unless one of them is refused. -/
theorem apply_new (hnew : ((store ++ ts).map E.id).Nodup) (hclosed : ∀ t ∈ ts.getLast?, E.linked t = false) :
    E.apply store ts = store ++ if ts.all fun t => !E.refused t then ts else [] := by
  rw [map_append, nodup_append] at hnew
  obtain ⟨-, hnodup, hdisj⟩ := hnew
  have hids : ∀ t ∈ ts, E.id t ∉ store.map E.id := fun t ht hmem => hdisj _ hmem _ (mem_map_of_mem ht) rfl
  have hiff : E.Accepts store ts ↔ (ts.all fun t => !E.refused t) = true := by
    simp only [Events.Accepts, all_eq_true, Bool.not_eq_true']
    exact ⟨fun h t ht => (h.1 t ht).2, fun h => ⟨fun t ht => ⟨hids t ht, h t ht⟩, hnodup, hclosed⟩⟩
  rw [Events.apply]
  by_cases h : E.Accepts store ts
  · rw [if_pos h, if_pos (hiff.1 h)]
  · rw [if_neg h, if_neg fun hall => h (hiff.2 hall), append_nil]

end Lib
