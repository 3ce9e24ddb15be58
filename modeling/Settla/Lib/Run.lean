import Mathlib.Algebra.Ring.Int.Defs
import Mathlib.Data.List.Perm.Basic

/-!
# Runs of a state machine

`run` folds a step function over a list of inputs; `Along step ok s is` says that every step of that
run meets a condition on the state it starts from and its input.
-/

namespace Lib

open List

variable {σ ι : Type*} (step : σ → ι → σ)

def run (s : σ) (is : List ι) : σ := is.foldl step s

@[simp] theorem run_nil (s : σ) : run step s [] = s := rfl

@[simp] theorem run_cons (s : σ) (i : ι) (is : List ι) :
    run step s (i :: is) = run step (step s i) is := rfl

theorem run_append (s : σ) (is js : List ι) : run step s (is ++ js) = run step (run step s is) js :=
  foldl_append

theorem run_snoc (s : σ) (is : List ι) (i : ι) : run step s (is ++ [i]) = step (run step s is) i := by
  rw [run_append, run_cons, run_nil]

/-- Every step of the run from `s` meets `ok`. -/
def Along (ok : σ → ι → Prop) : σ → List ι → Prop
  | _, [] => True
  | s, i :: is => ok s i ∧ Along ok (step s i) is

variable {step} {ok : σ → ι → Prop}

instance Along.decidable [∀ s i, Decidable (ok s i)] : ∀ (is : List ι) (s : σ), Decidable (Along step ok s is)
  | [], _ => inferInstanceAs (Decidable True)
  | i :: is, s =>
    have := Along.decidable is (step s i)
    inferInstanceAs (Decidable (ok s i ∧ Along step ok (step s i) is))

@[simp] theorem along_nil (s : σ) : Along step ok s [] := trivial

@[simp] theorem along_cons (s : σ) (i : ι) (is : List ι) :
    Along step ok s (i :: is) ↔ ok s i ∧ Along step ok (step s i) is := Iff.rfl

theorem along_append (s : σ) (is js : List ι) :
    Along step ok s (is ++ js) ↔ Along step ok s is ∧ Along step ok (run step s is) js := by
  induction is generalizing s with
  | nil => simp
  | cons i is ih => simp [ih, and_assoc]

theorem along_snoc (s : σ) (is : List ι) (i : ι) :
    Along step ok s (is ++ [i]) ↔ Along step ok s is ∧ ok (run step s is) i := by
  rw [along_append, along_cons]
  simp

theorem along_iff_split (s : σ) (is : List ι) :
    Along step ok s is ↔ ∀ is₁ i is₂, is = is₁ ++ i :: is₂ → ok (run step s is₁) i := by
  induction is generalizing s with
  | nil => simp
  | cons j is ih =>
    rw [along_cons, ih]
    constructor
    · rintro ⟨hj, h⟩ is₁ i is₂ heq
      cases is₁ with
      | nil => cases heq; exact hj
      | cons k is₁ => cases heq; exact h is₁ i is₂ rfl
    · intro h
      exact ⟨h [] j is rfl, fun is₁ i is₂ heq => h (j :: is₁) i is₂ (congrArg (j :: ·) heq)⟩

variable {is : List ι} {P : σ → Prop} {s : σ} {ok' : σ → ι → Prop} {R : σ → σ → Prop}

theorem along_of_forall {p : ι → Prop} (h : ∀ i ∈ is, p i) (s : σ) : Along step (fun _ i => p i) s is := by
  induction is generalizing s with
  | nil => trivial
  | cons i is ih =>
    exact ⟨h i mem_cons_self, ih (fun j hj => h j (mem_cons_of_mem _ hj)) (step s i)⟩

/-- **Invariant rule.** What every admissible step preserves holds after every
admissible run. -/
theorem run_preserves (hstep : ∀ s i, P s → ok s i → P (step s i)) (hs : P s)
    (h : Along step ok s is) : P (run step s is) := by
  induction is generalizing s with
  | nil => exact hs
  | cons i is ih => exact ih (hstep s i hs h.1) h.2

theorem run_invariant (hstep : ∀ s i, P s → P (step s i)) (hs : P s) (is : List ι) : P (run step s is) := by
  induction is generalizing s with
  | nil => exact hs
  | cons i is ih => exact ih (hstep s i hs)

theorem along_congr (hiff : ∀ s i, P s → (ok s i ↔ ok' s i))
    (hstep : ∀ s i, P s → ok s i → P (step s i)) (hs : P s) (is : List ι) :
    Along step ok s is ↔ Along step ok' s is := by
  induction is generalizing s with
  | nil => exact Iff.rfl
  | cons i is ih =>
    rw [along_cons, along_cons, ← hiff s i hs]
    exact and_congr_right fun hi => ih (hstep s i hs hi)

theorem along_and (h : Along step ok s is) (h' : Along step ok' s is) :
    Along step (fun s i => ok s i ∧ ok' s i) s is := by
  induction is generalizing s with
  | nil => trivial
  | cons i is ih => exact ⟨⟨h.1, h'.1⟩, ih h.2 h'.2⟩

/-- The sum of what each step of a run contributes. -/
def accum (step : σ → ι → σ) (d : σ → ι → ℤ) : σ → List ι → ℤ
  | _, [] => 0
  | s, i :: is => d s i + accum step d (step s i) is

theorem run_accum {F : σ → ℤ} {d : σ → ι → ℤ} (hstep : ∀ s i, P s → ok s i → P (step s i))
    (hchange : ∀ s i, P s → ok s i → F (step s i) = F s + d s i) (hs : P s)
    (h : Along step ok s is) : F (run step s is) = F s + accum step d s is := by
  induction is generalizing s with
  | nil => exact (add_zero _).symm
  | cons i is ih =>
    have hrest := ih (hstep s i hs h.1) h.2
    rw [run_cons, hrest, hchange s i hs h.1, accum, add_assoc]

/-! ### Two runs -/

theorem run_related (hR : ∀ s s' i, R s s' → R (step s i) (step s' i)) {s' : σ} (h : R s s')
    (is : List ι) : R (run step s is) (run step s' is) := by
  induction is generalizing s s' with
  | nil => exact h
  | cons i is ih => exact ih (hR s s' i h)

/-- **Two growing logs agree exactly if each step adds the same to both.** -/
theorem logs_agree_iff {α : Type*} {log : σ → List α} {out : σ → ι → List α}
    (hR : ∀ s s' i, R s s' → R (step s i) (step s' i)) (hlog : ∀ s i, log (step s i) = log s ++ out s i)
    (hlen : ∀ s s' i, R s s' → (out s i).length = (out s' i).length)
    (hout : ∀ s s' i, R s s' → (out s i = out s' i ↔ ok s i)) {s' : σ} (h : R s s')
    (h₀ : (log s).length = (log s').length) (is : List ι) :
    log (run step s is) = log (run step s' is) ↔ log s = log s' ∧ Along step ok s is := by
  induction is generalizing s s' with
  | nil => simp
  | cons i is ih =>
    have hlen' : (log (step s i)).length = (log (step s' i)).length := by
      rw [hlog, hlog, length_append, length_append, h₀, hlen s s' i h]
    rw [run_cons, run_cons, ih (hR s s' i h) hlen', along_cons, ← hout s s' i h, hlog, hlog, ← and_assoc]
    refine and_congr_left fun _ => ⟨fun heq => append_inj heq h₀, ?_⟩
    rintro ⟨heq, heq'⟩
    rw [heq, heq']

/-! ## Lists that grow -/

section Elements

variable {α : Type*} {P : α → Prop} {l : List α} {x : α}

theorem forall_mem_snoc (hl : ∀ y ∈ l, P y) (hx : P x) : ∀ y ∈ l ++ [x], P y :=
  forall_mem_append.2 ⟨hl, forall_mem_singleton.2 hx⟩

theorem forall_mem_set (hl : ∀ y ∈ l, P y) (hx : P x) {i : ℕ} : ∀ y ∈ l.set i x, P y := by
  intro y hy
  rcases mem_or_eq_of_mem_set hy with hy | rfl
  · exact hl y hy
  · exact hx

theorem perm_rest {i : ℕ} (hi : l[i]? = some x) :
    l.Perm (x :: l.eraseIdx i) ∧ ∀ y, (l.set i y).Perm (y :: l.eraseIdx i) := by
  obtain ⟨hlt, hget⟩ := List.getElem?_eq_some_iff.1 hi
  refine ⟨?_, set_perm_cons_eraseIdx hlt⟩
  rw [← hget]
  exact (getElem_cons_eraseIdx_perm hlt).symm

end Elements

end Lib
