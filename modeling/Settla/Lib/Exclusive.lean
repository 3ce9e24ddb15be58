import Settla.Lib.Threads

/-!
# One thread at a time in a region

That at most one thread is inside a region is a condition on the run. `Region` says what holds always,
what holds while nobody is inside (`Free`), and what a thread knows at its position (`Own`). A thread
inside may break what is known to threads inside and must restore `Free` when it leaves.
-/

namespace Lib.Threads

open List

variable {σ α γ ρ ι : Type*}

/-- The region, the conditions on a run, and the assertions. -/
structure Region (σ α γ ρ ι : Type*) where
  /-- the labels inside -/
  inside : γ → Bool
  /-- the steps that may lead inside -/
  entry : γ → Bool
  /-- which threads are started -/
  starts : ι → Prop
  /-- what is asked of a step -/
  asks : γ → α → σ → Prop
  /-- where a thread inside may crash -/
  mayDrop : γ → Prop
  (Always Free : σ → Prop)
  Own : σ → Pos γ ρ → Prop

namespace Region

variable (R : Region σ α γ ρ ι)

def within : Pos γ ρ → Bool
  | .before g => R.inside g
  | .returned _ => false

def ok (s : σ) (ps : List (Pos γ ρ)) : Action ι α → Prop
  | .start c => R.starts c
  | .step i a =>
    match ps[i]? with
    | some (.before g) => R.asks g a s ∧ (R.entry g = true → ps.countP R.within = 0)
    | _ => True
  | .drop i =>
    match ps[i]? with
    | some (.before g) => R.inside g = true → R.mayDrop g
    | _ => True

instance [DecidablePred R.starts] [∀ g a s, Decidable (R.asks g a s)] [DecidablePred R.mayDrop] (s : σ)
    (ps : List (Pos γ ρ)) : ∀ a, Decidable (R.ok s ps a)
  | .start c => inferInstanceAs (Decidable (R.starts c))
  | .step i a =>
    match h : ps[i]? with
    | some (.before g) =>
      decidable_of_iff (R.asks g a s ∧ (R.entry g = true → ps.countP R.within = 0)) (by simp [ok, h])
    | some (.returned _) | none => .isTrue (by simp [ok, h])
  | .drop i =>
    match h : ps[i]? with
    | some (.before g) => decidable_of_iff (R.inside g = true → R.mayDrop g) (by simp [ok, h])
    | some (.returned _) | none => .isTrue (by simp [ok, h])

structure Sound (G : γ → α → σ → σ → Pos γ ρ → Prop) (code : ι → Prog σ α γ ρ) : Prop where
  start : ∀ c s, R.starts c → R.Always s → R.within (code c).pos = false ∧ R.Own s (code c).pos
  /-- a step outside disturbs nobody -/
  outside : ∀ g a s s' q, R.inside g = false → R.within q = false → R.asks g a s → G g a s s' q → R.Always s →
    R.Own s (.before g) → R.Always s' ∧ R.Own s' q ∧ (R.Free s → R.Free s') ∧ ∀ p, R.Own s p → R.Own s' p
  /-- a thread enters only where it may, and finds the region free -/
  enter : ∀ g a s s' q, R.inside g = false → R.within q = true → R.asks g a s → G g a s s' q → R.Always s →
    R.Own s (.before g) → R.entry g = true ∧
      (R.Free s → R.Always s' ∧ R.Own s' q ∧ ∀ p, R.within p = false → R.Own s p → R.Own s' p)
  /-- a thread inside has only those outside to respect -/
  within : ∀ g a s s' q, R.inside g = true → R.asks g a s → G g a s s' q → R.Always s → R.Own s (.before g) →
    R.Always s' ∧ R.Own s' q ∧ (R.within q = false → R.Free s') ∧ ∀ p, R.within p = false → R.Own s p → R.Own s' p
  drop : ∀ g s, R.inside g = true → R.mayDrop g → R.Always s → R.Own s (.before g) → R.Free s

/-- At most one thread is inside, and everything asserted holds. -/
structure Inv (s : σ) (ps : List (Pos γ ρ)) : Prop where
  one : ps.countP R.within ≤ 1
  always : R.Always s
  free : ps.countP R.within = 0 → R.Free s
  own : ∀ q ∈ ps, R.Own s q

end Region

variable {R : Region σ α γ ρ ι} {G : γ → α → σ → σ → Pos γ ρ → Prop} {code : ι → Prog σ α γ ρ}

theorem Region.Inv.perm {s : σ} {ps qs : List (Pos γ ρ)} (h : R.Inv s ps) (hp : ps.Perm qs) : R.Inv s qs where
  one := hp.countP_eq R.within ▸ h.one
  always := h.always
  free h0 := h.free (hp.countP_eq R.within ▸ h0)
  own q hq := h.own q (hp.mem_iff.2 hq)

theorem Region.Sound.step (hR : R.Sound G code) {g : γ} {a : α} {s s' : σ} {q : Pos γ ρ} {rest : List (Pos γ ρ)}
    (h : R.Inv s (.before g :: rest)) (hasks : R.asks g a s)
    (hentry : R.entry g = true → (Pos.before g :: rest).countP R.within = 0) (hG : G g a s s' q) :
    R.Inv s' (q :: rest) := by
  have hown : R.Own s (.before g) := h.own _ (by simp)
  have hrest : ∀ p ∈ rest, R.Own s p := fun p hp => h.own p (by simp [hp])
  have hone := h.one
  have hfree := h.free
  rw [countP_cons] at hone hfree
  cases hg : R.inside g with
  | true =>
    obtain ⟨halways, hq, hfree', hothers⟩ := hR.within g a s s' q hg hasks hG h.always hown
    -- the thread is the only one inside
    have hzero : rest.countP R.within = 0 := by
      have : R.within (.before g : Pos γ ρ) = true := hg
      rw [if_pos this] at hone
      omega
    have hout : ∀ p ∈ rest, R.within p = false := by simpa using countP_eq_zero.1 hzero
    refine ⟨?_, halways, ?_, ?_⟩
    · rw [countP_cons, hzero]
      split <;> omega
    · intro h0
      refine hfree' ?_
      by_contra hin
      simp [hin] at h0
    · intro p hp
      rcases mem_cons.1 hp with rfl | hp
      · exact hq
      · exact hothers p (hout p hp) (hrest p hp)
  | false =>
    have hgw : R.within (.before g : Pos γ ρ) = false := hg
    cases hqw : R.within q with
    | false =>
      obtain ⟨halways, hq, hfree', hothers⟩ := hR.outside g a s s' q hg hqw hasks hG h.always hown
      simp only [hgw, Bool.false_eq_true, if_false, Nat.add_zero] at hone hfree
      refine ⟨?_, halways, ?_, ?_⟩
      · simpa [countP_cons, hqw] using hone
      · intro h0
        exact hfree' (hfree (by simpa [countP_cons, hqw] using h0))
      · intro p hp
        rcases mem_cons.1 hp with rfl | hp
        · exact hq
        · exact hothers p (hrest p hp)
    | true =>
      obtain ⟨hent, hgo⟩ := hR.enter g a s s' q hg hqw hasks hG h.always hown
      have h0 := hentry hent
      obtain ⟨halways, hq, hothers⟩ := hgo (h.free h0)
      have hzero : rest.countP R.within = 0 := by
        rw [countP_cons] at h0
        omega
      have hout : ∀ p ∈ rest, R.within p = false := by simpa using countP_eq_zero.1 hzero
      refine ⟨?_, halways, ?_, ?_⟩
      · simp [hzero, hqw]
      · intro hcount
        simp [hqw] at hcount
      · intro p hp
        rcases mem_cons.1 hp with rfl | hp
        · exact hq
        · exact hothers p (hout p hp) (hrest p hp)

/-- **The rule**: sound assertions are kept by every action that meets the conditions. -/
theorem region_keeps (hR : R.Sound G code) : Keeps G code R.ok R.Inv := by
  intro s ps a s' ps' h hok heff
  cases heff with
  | start c =>
    obtain ⟨hout, hown⟩ := hR.start c s hok h.always
    have hcount : (ps ++ [(code c).pos]).countP R.within = ps.countP R.within := by simp [hout]
    refine ⟨hcount ▸ h.one, h.always, fun h0 => h.free (hcount ▸ h0), forall_mem_snoc h.own hown⟩
  | idle i a => exact h
  | step i a g s' q hi hG =>
    obtain ⟨hps, hset⟩ := perm_rest hi
    simp only [Region.ok, hi] at hok
    have hentry : R.entry g = true → (Pos.before g :: ps.eraseIdx i).countP R.within = 0 :=
      fun he => hps.countP_eq R.within ▸ hok.2 he
    exact (hR.step (h.perm hps) hok.1 hentry hG).perm (hset q).symm
  | drop i =>
    have hsub := eraseIdx_sublist ps i
    refine ⟨Nat.le_trans hsub.countP_le h.one, h.always, ?_, fun q hq => h.own q (hsub.subset hq)⟩
    intro h0
    cases hi : ps[i]? with
    | none =>
      rw [eraseIdx_of_length_le (List.getElem?_eq_none_iff.1 hi)] at h0
      exact h.free h0
    | some p =>
      obtain ⟨hps, -⟩ := perm_rest hi
      have hcount := hps.countP_eq R.within
      rw [countP_cons, h0] at hcount
      -- the thread that crashed was the one inside, or there was none
      cases p with
      | returned r => exact h.free hcount
      | before g =>
        cases hg : R.inside g with
        | false => exact h.free (by simpa [Region.within, hg] using hcount)
        | true =>
          simp only [Region.ok, hi] at hok
          exact hR.drop g s hg (hok hg) h.always (h.own _ (List.mem_of_getElem? hi))

theorem region_run (hR : R.Sound G code) (hcode : ∀ c, (code c).Follows G) {s₀ : σ} (hs : R.Always s₀)
    (hfree : R.Free s₀) {as : List (Action ι α)} (has : Meets code R.ok (System.init s₀) as) :
    R.Inv (run (System.act code) (System.init s₀) as).state (run (System.act code) (System.init s₀) as).positions :=
  (run_keeps hcode (region_keeps hR) (init_following s₀)
    ⟨by simp [System.positions, System.init], hs, fun _ => hfree, by simp [System.positions, System.init]⟩ has).2

end Lib.Threads
