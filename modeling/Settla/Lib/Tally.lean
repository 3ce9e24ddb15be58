import Settla.Lib.Threads

/-!
# A running total beside its entries

Some steps add an entry and count it in, without a new version. Others write back a copy of the row, if
the row still has the version of the copy: entries added in between are taken out of the total again.
`Tally.alone` excludes this, and then the total is the sum of the entries (`tally_keeps`).
-/

namespace Lib.Threads

open List

variable {σ α γ ρ ι A : Type*}

/-- A copy of the row: the version it has to be written against, and its total. -/
structure Copy (A : Type*) where
  version : ℕ
  total : A

/-- The row, the entries, and the copies the threads hold. -/
structure Tally (σ γ ρ A : Type*) where
  version : σ → ℕ
  total : σ → A
  /-- the sum of the entries -/
  sum : σ → A
  /-- the copy a thread holds at a label -/
  copy : γ → Option (Copy A)
  /-- the steps that may add an entry -/
  adds : γ → Bool
  /-- what else holds of the state, and of a position -/
  Always : σ → Prop
  Known : Pos γ ρ → Prop

namespace Tally

variable (T : Tally σ γ ρ A)

def Fresh (s : σ) (c : Copy A) : Prop := c.version ≤ T.version s ∧ (c.version = T.version s → c.total = T.total s)

def Holds (s : σ) : Pos γ ρ → Prop
  | .before g => ∀ c ∈ T.copy g, T.Fresh s c
  | .returned _ => True

def Outdated (s : σ) : Pos γ ρ → Prop
  | .before g => ∀ c ∈ T.copy g, c.version ≠ T.version s
  | .returned _ => True

instance (s : σ) : DecidablePred (T.Outdated s : Pos γ ρ → Prop)
  | .before g => inferInstanceAs (Decidable (∀ c ∈ T.copy g, c.version ≠ T.version s))
  | .returned _ => .isTrue trivial

/-- An entry is added only while no other thread holds a copy of the current version. -/
def alone (s : σ) (ps : List (Pos γ ρ)) : Action ι α → Prop
  | .step i _ =>
    match ps[i]? with
    | some (.before g) => T.adds g = true → ∀ p ∈ ps.eraseIdx i, T.Outdated s p
    | _ => True
  | _ => True

instance (s : σ) (ps : List (Pos γ ρ)) : ∀ a : Action ι α, Decidable (T.alone s ps a)
  | .start _ | .drop _ => .isTrue trivial
  | .step i _ =>
    match h : ps[i]? with
    | some (.before g) =>
      decidable_of_iff (T.adds g = true → ∀ p ∈ ps.eraseIdx i, T.Outdated s p) (by simp [alone, h])
    | some (.returned _) | none => .isTrue (by simp [alone, h])

/-- Threads start without a copy. A step of a thread whose copy is fresh keeps the total equal to
the sum, and leaves row and version alone, counts the version up, or adds an entry. -/
structure Sound (G : γ → α → σ → σ → Pos γ ρ → Prop) (code : ι → Prog σ α γ ρ) : Prop where
  start : ∀ c s, T.Holds s (code c).pos ∧ T.Known (code c).pos
  step : ∀ g a s s' q, G g a s s' q → T.Always s → T.Known (.before g) → T.Holds s (.before g) →
    T.total s = T.sum s → T.Always s' ∧ T.Known q ∧ T.Holds s' q ∧ T.total s' = T.sum s' ∧
      (T.version s' = T.version s ∧ (T.adds g = true ∨ T.total s' = T.total s) ∨ T.version s < T.version s')

/-- The total is the sum, and every thread has a fresh copy or none. -/
structure Inv (s : σ) (ps : List (Pos γ ρ)) : Prop where
  total : T.total s = T.sum s
  always : T.Always s
  own : ∀ p ∈ ps, T.Known p ∧ T.Holds s p

end Tally

variable {T : Tally σ γ ρ A} {G : γ → α → σ → σ → Pos γ ρ → Prop} {code : ι → Prog σ α γ ρ} {p : Pos γ ρ}

theorem Tally.Holds.next {s s' : σ} (h : T.Holds s p) (hv : T.version s < T.version s') : T.Holds s' p := by
  cases p with
  | returned r => trivial
  | before g =>
    intro c hc
    have hle := (h c hc).1
    exact ⟨by omega, fun heq => by omega⟩

theorem Tally.Holds.outdated {s s' : σ} (h : T.Holds s p) (hout : T.Outdated s p)
    (hv : T.version s' = T.version s) : T.Holds s' p := by
  cases p with
  | returned r => trivial
  | before g =>
    intro c hc
    have hle := (h c hc).1
    exact ⟨by omega, fun heq => absurd (heq.trans hv) (hout c hc)⟩

theorem Tally.Holds.same {s s' : σ} (h : T.Holds s p) (hv : T.version s' = T.version s)
    (ht : T.total s' = T.total s) : T.Holds s' p := by
  cases p with
  | returned r => trivial
  | before g =>
    intro c hc
    obtain ⟨hle, heq⟩ := h c hc
    exact ⟨by omega, fun hc' => (heq (hc'.trans hv)).trans ht.symm⟩

/-- **The rule**: while entries are added only alone, the total is the sum of the entries. -/
theorem tally_keeps (hT : T.Sound G code) : Keeps G code T.alone T.Inv := by
  intro s ps act s' ps' h hok heff
  cases heff with
  | start c =>
    obtain ⟨hhold, hknown⟩ := hT.start c s
    exact ⟨h.total, h.always, forall_mem_snoc h.own ⟨hknown, hhold⟩⟩
  | drop i => exact ⟨h.total, h.always, fun p hp => h.own p (mem_of_mem_eraseIdx hp)⟩
  | idle i a => exact h
  | step i a g s' q hi hG =>
    obtain ⟨hknown, hhold⟩ := h.own _ (List.mem_of_getElem? hi)
    obtain ⟨halways, hq, hqhold, htotal, hcases⟩ := hT.step g a s s' q hG h.always hknown hhold h.total
    simp only [Tally.alone, hi] at hok
    refine ⟨htotal, halways, fun p hp => ?_⟩
    obtain ⟨-, hset⟩ := perm_rest hi
    rcases mem_cons.1 ((hset q).mem_iff.1 hp) with rfl | hrest
    · exact ⟨hq, hqhold⟩
    obtain ⟨hpk, hph⟩ := h.own p (mem_of_mem_eraseIdx hrest)
    refine ⟨hpk, ?_⟩
    rcases hcases with ⟨hv, hadds | hsame⟩ | hv
    · exact hph.outdated (hok hadds p hrest) hv
    · exact hph.same hv hsame
    · exact hph.next hv

end Lib.Threads
