import Settla.Lib.Threads

/-!
# Claiming a slot before a call

Who finds the slot empty takes it and may then make a call that must succeed at most once (`Discipline`).
-/

namespace Lib.Threads

open List

variable {σ α γ ρ ι : Type*}

/-- A slot in the state, the number of calls that succeeded, and the positions that own
the slot. -/
structure Slot (σ γ : Type*) where
  taken : σ → Bool
  calls : σ → ℕ
  owner : γ → Bool

variable (sl : Slot σ γ)

def Slot.owns : Pos γ ρ → Bool
  | .before g => sl.owner g
  | .returned _ => false

/-- What a step at a label may do to the slot. -/
inductive Discipline (g : γ) (s s' : σ) (q : Pos γ ρ) : Prop
  /-- an empty slot is taken -/
  | take : sl.owner g = false → sl.taken s = false → sl.taken s' = true → sl.calls s' = sl.calls s →
      Discipline g s s' q
  /-- the owner's call succeeds, which ends its ownership -/
  | call : sl.owner g = true → sl.taken s' = sl.taken s → sl.calls s' = sl.calls s + 1 → sl.owns q = false →
      Discipline g s s' q
  /-- anything else leaves the slot alone and gains no ownership -/
  | other : sl.taken s' = sl.taken s → sl.calls s' = sl.calls s → (sl.owns q = true → sl.owner g = true) →
      Discipline g s s' q

/-- Owners and successful calls: at most one, and none while the slot is empty. -/
def Slot.Inv (s : σ) (ps : List (Pos γ ρ)) : Prop :=
  ps.countP sl.owns + sl.calls s ≤ if sl.taken s then 1 else 0

theorem countP_owns_set {ps : List (Pos γ ρ)} {i : ℕ} {g : γ} (hi : ps[i]? = some (.before g)) (q : Pos γ ρ) :
    (ps.set i q).countP sl.owns + (if sl.owner g then 1 else 0) =
      ps.countP sl.owns + if sl.owns q then 1 else 0 := by
  obtain ⟨hps, hset⟩ := perm_rest hi
  have hold := hps.countP_eq sl.owns
  have hnew := (hset q).countP_eq sl.owns
  have hown : sl.owns (.before g : Pos γ ρ) = sl.owner g := rfl
  rw [countP_cons, hown] at hold
  rw [countP_cons] at hnew
  omega

variable {sl} {G : γ → α → σ → σ → Pos γ ρ → Prop} {code : ι → Prog σ α γ ρ}

/-- **The discipline keeps owners and successful calls below one.** -/
theorem owners_le (hG : ∀ g a s s' q, G g a s s' q → Discipline sl g s s' q)
    (hstart : ∀ c, sl.owns (code c).pos = false) : Keeps G code (fun _ _ _ => True) sl.Inv := by
  intro s ps a s' ps' hinv _ heff
  cases heff with
  | start c =>
    have : (ps ++ [(code c).pos]).countP sl.owns = ps.countP sl.owns := by simp [hstart c]
    simp only [Slot.Inv, this]
    exact hinv
  | drop i =>
    have hsub : (ps.eraseIdx i).countP sl.owns ≤ ps.countP sl.owns := (eraseIdx_sublist ps i).countP_le
    unfold Slot.Inv at hinv ⊢
    omega
  | idle i a => exact hinv
  | step i a g s' q hi hg =>
    have hcount := countP_owns_set sl hi q
    unfold Slot.Inv at hinv ⊢
    cases hG _ _ _ _ _ hg with
    | take hown hfree htaken hcalls =>
      -- the slot was empty, so nobody owned it and no call had succeeded
      rw [hfree] at hinv
      rw [hown] at hcount
      simp only [Bool.false_eq_true, if_false] at hinv hcount
      rw [htaken, hcalls, if_pos rfl]
      split at hcount <;> omega
    | call hown htaken hcalls hq =>
      rw [hown, hq] at hcount
      rw [htaken, hcalls]
      simp only [Bool.false_eq_true, if_false, if_true] at hcount
      omega
    | other htaken hcalls hq =>
      rw [htaken, hcalls]
      have : (if sl.owns q then 1 else 0) ≤ if sl.owner g then 1 else 0 := by
        split
        · rename_i h; rw [hq h]; simp
        · exact Nat.zero_le _
      omega

/-- **At most one call succeeds**, in every run from an empty slot. -/
theorem at_most_once (sl : Slot σ γ) (hcode : ∀ c, (code c).Follows G)
    (hG : ∀ g a s s' q, G g a s s' q → Discipline sl g s s' q) (hstart : ∀ c, sl.owns (code c).pos = false)
    {s₀ : σ} (h₀ : sl.calls s₀ = 0) (as : List (Action ι α)) :
    sl.calls (run (System.act code) (System.init s₀) as).state ≤ 1 := by
  have hinit : sl.Inv s₀ ([] : List (Pos γ ρ)) := by simp [Slot.Inv, h₀]
  have hall : Meets code (fun _ _ _ => True) (System.init s₀) as := along_of_forall (fun _ _ => trivial) _
  have hinv := (run_keeps hcode (owners_le hG hstart) (init_following s₀) hinit hall).2
  unfold Slot.Inv at hinv
  split at hinv <;> omega

end Lib.Threads
