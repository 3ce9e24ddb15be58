import Mathlib.Data.Rat.Floor
import Mathlib.Tactic.Positivity

/-!
# Exact decimals

Decimals are rationals. `truncPlaces s` cuts to `s` places; `roundPlaces s` rounds halves away from
zero, as a SQL `NUMERIC(p, s)` column does on assignment.
-/

namespace Lib

def intPart (d : ℚ) : ℤ := d.num.tdiv d.den

variable {s : ℕ} {d : ℚ}

theorem intPart_eq_floor (h : 0 ≤ d) : intPart d = ⌊d⌋ := by
  have hn : 0 ≤ d.num := Rat.num_nonneg.2 h
  rw [intPart, Int.tdiv_eq_ediv_of_nonneg hn, Rat.floor_def']

theorem intPart_nonneg (h : 0 ≤ d) : 0 ≤ intPart d := by
  rw [intPart_eq_floor h]; exact Int.floor_nonneg.2 h

theorem intPart_nonpos (h : d ≤ 0) : intPart d ≤ 0 := by
  have hn : 0 ≤ -d.num := neg_nonneg.2 (Rat.num_nonpos.2 h)
  have hdiv := Int.tdiv_nonneg hn (Int.natCast_nonneg d.den)
  rw [Int.neg_tdiv] at hdiv
  exact neg_nonneg.1 hdiv

theorem intPart_mono {d' : ℚ} (h : 0 ≤ d) (hle : d ≤ d') : intPart d ≤ intPart d' := by
  rw [intPart_eq_floor h, intPart_eq_floor (h.trans hle)]
  exact Int.floor_le_floor hle

@[simp] theorem intPart_intCast (n : ℤ) : intPart n = n := by simp [intPart]

def truncPlaces (s : ℕ) (d : ℚ) : ℚ := intPart (d * 10 ^ s) / 10 ^ s

/-- Rounding to `s` decimal places, halves away from zero. -/
def roundPlaces (s : ℕ) (d : ℚ) : ℚ :=
  let n := ⌊|d| * 10 ^ s + 1 / 2⌋
  (if d < 0 then -n else n) / 10 ^ s

theorem roundPlaces_of_nonneg (s : ℕ) (h : 0 ≤ d) : roundPlaces s d = ⌊d * 10 ^ s + 1 / 2⌋ / 10 ^ s := by
  unfold roundPlaces
  dsimp only
  rw [abs_of_nonneg h, if_neg h.not_gt]

theorem roundPlaces_nonneg (s : ℕ) (h : 0 ≤ d) : 0 ≤ roundPlaces s d := by
  have hn : (0 : ℚ) ≤ ⌊|d| * 10 ^ s + 1 / 2⌋ := by
    have : (0 : ℤ) ≤ ⌊|d| * 10 ^ s + 1 / 2⌋ := Int.floor_nonneg.2 (by positivity)
    exact_mod_cast this
  simp only [roundPlaces, if_neg (not_lt.2 h)]
  positivity

theorem roundPlaces_eq {m : ℤ} (hd : d * 10 ^ s = m) : roundPlaces s d = d := by
  have hpos : (0 : ℚ) < 10 ^ s := by positivity
  have habs : |d| * 10 ^ s = ((|m| : ℤ) : ℚ) := by
    rw [Int.cast_abs, ← hd, abs_mul, abs_of_pos hpos]
  have hfloor : ⌊|d| * 10 ^ s + 1 / 2⌋ = |m| := by
    rw [habs, Int.floor_intCast_add]
    norm_num
  simp only [roundPlaces, hfloor]
  rw [div_eq_iff hpos.ne', hd]
  split
  · rename_i hneg
    have hm : m < 0 := by
      have : d * 10 ^ s < 0 := mul_neg_of_neg_of_pos hneg hpos
      rw [hd] at this
      exact_mod_cast this
    rw [abs_of_neg hm]; simp
  · rename_i hneg
    have hm : 0 ≤ m := by
      have : 0 ≤ d * 10 ^ s := mul_nonneg (not_lt.1 hneg) hpos.le
      rw [hd] at this
      exact_mod_cast this
    rw [abs_of_nonneg hm]

theorem roundPlaces_grid (s : ℕ) (d : ℚ) : ∃ m : ℤ, roundPlaces s d * 10 ^ s = m := by
  have hpos : (0 : ℚ) < 10 ^ s := by positivity
  exact ⟨if d < 0 then -⌊|d| * 10 ^ s + 1 / 2⌋ else ⌊|d| * 10 ^ s + 1 / 2⌋, div_mul_cancel₀ _ hpos.ne'⟩

theorem roundPlaces_idem (s : ℕ) (d : ℚ) : roundPlaces s (roundPlaces s d) = roundPlaces s d := by
  obtain ⟨m, hm⟩ := roundPlaces_grid s d
  exact roundPlaces_eq hm

theorem roundPlaces_neg (s : ℕ) (h : 0 < d) : roundPlaces s (-d) = -roundPlaces s d := by
  have hneg : -d < 0 := neg_neg_of_pos h
  rw [roundPlaces_of_nonneg s h.le]
  unfold roundPlaces
  dsimp only
  rw [if_pos hneg, abs_neg, abs_of_pos h, Int.cast_neg, neg_div]

theorem roundPlaces_mono (s : ℕ) {d' : ℚ} (hle : d ≤ d') : roundPlaces s d ≤ roundPlaces s d' := by
  have hpos : (0 : ℚ) < 10 ^ s := by positivity
  -- on the non-negative half it is a floor
  have hhalf : ∀ {x y : ℚ}, 0 ≤ x → x ≤ y → roundPlaces s x ≤ roundPlaces s y := by
    intro x y hx hxy
    rw [roundPlaces_of_nonneg s hx, roundPlaces_of_nonneg s (hx.trans hxy)]
    have hfloor : ⌊x * 10 ^ s + 1 / 2⌋ ≤ ⌊y * 10 ^ s + 1 / 2⌋ := by
      apply Int.floor_le_floor
      have := mul_le_mul_of_nonneg_right hxy hpos.le
      linarith
    have hcast : ((⌊x * 10 ^ s + 1 / 2⌋ : ℤ) : ℚ) ≤ ⌊y * 10 ^ s + 1 / 2⌋ := by exact_mod_cast hfloor
    exact div_le_div_of_nonneg_right hcast hpos.le
  by_cases hd : 0 ≤ d
  · exact hhalf hd hle
  · have hd : 0 < -d := by linarith
    have hround : roundPlaces s d = -roundPlaces s (-d) := by
      rw [← roundPlaces_neg s hd, neg_neg]
    by_cases hd' : 0 ≤ d'
    · have h₁ := roundPlaces_nonneg s hd.le
      have h₂ := roundPlaces_nonneg s hd'
      linarith
    · have hd' : 0 < -d' := by linarith
      have hround' : roundPlaces s d' = -roundPlaces s (-d') := by
        rw [← roundPlaces_neg s hd', neg_neg]
      have := hhalf hd'.le (neg_le_neg hle)
      linarith

theorem roundPlaces_le {x : ℚ} (hx : roundPlaces s x = x) (h : d ≤ x) : roundPlaces s d ≤ x := by
  rw [← hx]
  exact roundPlaces_mono s h

theorem le_roundPlaces {x : ℚ} (hx : roundPlaces s x = x) (h : x ≤ d) : x ≤ roundPlaces s d := by
  rw [← hx]
  exact roundPlaces_mono s h

theorem roundPlaces_add {r : ℚ} (hr : 0 ≤ r) (hgrid : roundPlaces s r = r) (hd : 0 ≤ d) :
    roundPlaces s (r + d) = r + roundPlaces s d := by
  have hpos : (0 : ℚ) < 10 ^ s := by positivity
  obtain ⟨m, hm⟩ := roundPlaces_grid s r
  rw [hgrid] at hm
  have hfloor : ⌊(r + d) * 10 ^ s + 1 / 2⌋ = m + ⌊d * 10 ^ s + 1 / 2⌋ := by
    rw [add_mul, hm, add_assoc, Int.floor_intCast_add]
  simp only [roundPlaces, abs_of_nonneg hd, abs_of_nonneg (add_nonneg hr hd), if_neg (not_lt.2 hd),
    if_neg (not_lt.2 (add_nonneg hr hd)), hfloor]
  rw [Int.cast_add, ← hm, add_div, mul_div_assoc, div_self hpos.ne', mul_one]

end Lib
