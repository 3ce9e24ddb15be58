import Settla.Core.Compensation

/-!
# The two formulas for the loss of a reversal

`EstimateFXLoss` subtracts what was sent from what comes back, `CalculateFXLoss` what comes back
from what was sent. Both divide to sixteen places.
-/

namespace Settla.Compensation

open Lib

/-- **A rounded value is positive** from half a unit on. -/
theorem roundPlaces_pos_iff (s : ℕ) (d : ℚ) : 0 < roundPlaces s d ↔ 1 / 2 ≤ d * 10 ^ s := by
  have hpow : (0 : ℚ) < 10 ^ s := by positivity
  by_cases hd : 0 ≤ d
  · rw [roundPlaces_of_nonneg s hd, div_pos_iff_of_pos_right hpow, Int.cast_pos, Int.floor_pos]
    constructor
    all_goals
      intro h
      linarith
  · have hneg : d < 0 := not_le.1 hd
    have hfloor : (0 : ℤ) ≤ ⌊|d| * 10 ^ s + 1 / 2⌋ := Int.floor_nonneg.2 (by positivity)
    have hle : roundPlaces s d ≤ 0 := by
      unfold roundPlaces
      dsimp only
      rw [if_pos hneg]
      apply div_nonpos_of_nonpos_of_nonneg _ hpow.le
      exact_mod_cast neg_nonpos.2 hfloor
    have hprod : d * 10 ^ s < 0 := mul_neg_of_neg_of_pos hneg hpow
    constructor
    · intro h
      exact absurd h hle.not_gt
    · intro h
      linarith

variable {sourceAmount originalRate currentRate : Decimal}

def sentUnits (sourceAmount : Decimal) : ℚ := sourceAmount * 10 ^ 16

/-- What comes back, in units of `10⁻¹⁶`, before it is rounded. -/
def returnedUnits (sourceAmount originalRate currentRate : Decimal) : ℚ :=
  sourceAmount * originalRate / currentRate * 10 ^ 16

/-- **When the estimate is a loss**: when half a unit of `10⁻⁸` more comes back than was sent. -/
theorem estimate_pos_iff (hsource : 0 < sourceAmount) (horiginal : 0 < originalRate) (hcurrent : 0 < currentRate) :
    0 < estimateFXLoss (sourceAmount * originalRate) originalRate currentRate ↔
      ⌊sentUnits sourceAmount + 1 / 2⌋ + 50000000 ≤ returnedUnits sourceAmount originalRate currentRate + 1 / 2 := by
  have hsent : roundPlaces 16 (sourceAmount * originalRate / originalRate) =
      ⌊sentUnits sourceAmount + 1 / 2⌋ / 10 ^ 16 := by
    rw [mul_div_assoc, div_self horiginal.ne', mul_one]
    exact roundPlaces_of_nonneg 16 hsource.le
  unfold estimateFXLoss
  rw [if_neg (not_or.2 ⟨hcurrent.ne', horiginal.ne'⟩), roundPlaces_pos_iff, hsent,
    show roundPlaces 16 (sourceAmount * originalRate / currentRate) = _ from roundPlaces_of_nonneg 16 (by positivity)]
  have hfloor := Int.le_floor (a := returnedUnits sourceAmount originalRate currentRate + 1 / 2)
    (z := ⌊sentUnits sourceAmount + 1 / 2⌋ + 50000000)
  push_cast at hfloor
  rw [← hfloor]
  have hcast : ∀ m n : ℤ, (1 / 2 : ℚ) ≤ ((m : ℚ) / 10 ^ 16 - n / 10 ^ 16) * 10 ^ 8 ↔ n + 50000000 ≤ m := by
    intro m n
    have hscale : ((m : ℚ) / 10 ^ 16 - n / 10 ^ 16) * 10 ^ 8 = ((m - n : ℤ) : ℚ) / 10 ^ 8 := by
      push_cast
      field_simp
    have hhalf : (1 / 2 : ℚ) = ((50000000 : ℤ) : ℚ) / 10 ^ 8 := by norm_num
    rw [hscale, hhalf, div_le_div_iff_of_pos_right (by norm_num), Int.cast_le]
    omega
  exact hcast _ _

/-- **When the calculation is a loss**: when less comes back than was sent. -/
theorem loss_pos_iff (hsource : 0 < sourceAmount) (horiginal : 0 < originalRate) (hcurrent : 0 < currentRate) :
    0 < (calculateFXLoss sourceAmount originalRate currentRate).fxLoss ↔
      returnedUnits sourceAmount originalRate currentRate + 1 / 2 < ⌈sentUnits sourceAmount⌉ := by
  have hfx : (calculateFXLoss sourceAmount originalRate currentRate).fxLoss =
      if sourceAmount - roundPlaces 16 (sourceAmount * originalRate / currentRate) < 0 then 0
      else sourceAmount - roundPlaces 16 (sourceAmount * originalRate / currentRate) := by
    unfold calculateFXLoss
    rw [if_neg (not_or.2 ⟨horiginal.ne', hcurrent.ne'⟩)]
  have hpos : 0 < (calculateFXLoss sourceAmount originalRate currentRate).fxLoss ↔
      roundPlaces 16 (sourceAmount * originalRate / currentRate) < sourceAmount := by
    rw [hfx]
    split
    · rename_i hneg
      exact iff_of_false (lt_irrefl 0) (sub_neg.1 hneg).not_gt
    · exact sub_pos
  rw [hpos, roundPlaces_of_nonneg 16 (by positivity), div_lt_iff₀ (by norm_num)]
  show (⌊_⌋ : ℚ) < sentUnits sourceAmount ↔ _
  rw [← Int.lt_ceil, Int.floor_lt]
  rfl

/-- **The two formulas agree** exactly if the reversal returns what was sent, to the sixteenth
place, and less than half of `10⁻⁸` more. -/
theorem fx_loss_agree_iff (sourceAmount originalRate currentRate : Decimal) (hsource : 0 < sourceAmount)
    (horiginal : 0 < originalRate) (hcurrent : 0 < currentRate) :
    ((0 < estimateFXLoss (sourceAmount * originalRate) originalRate currentRate ↔
        0 < (calculateFXLoss sourceAmount originalRate currentRate).fxLoss) ∧
      (0 < estimateFXLoss (sourceAmount * originalRate) originalRate currentRate →
        |estimateFXLoss (sourceAmount * originalRate) originalRate currentRate -
          (calculateFXLoss sourceAmount originalRate currentRate).fxLoss| ≤ 1 / 10 ^ 8)) ↔
      (⌈sentUnits sourceAmount⌉ ≤ returnedUnits sourceAmount originalRate currentRate + 1 / 2 ∧
        returnedUnits sourceAmount originalRate currentRate + 1 / 2 < ⌊sentUnits sourceAmount + 1 / 2⌋ + 50000000) := by
  have hestimate := estimate_pos_iff hsource horiginal hcurrent
  have hloss := loss_pos_iff hsource horiginal hcurrent
  -- no amount comes back that is both less and more than what was sent
  have hnever : ¬ (0 < estimateFXLoss (sourceAmount * originalRate) originalRate currentRate ∧
      0 < (calculateFXLoss sourceAmount originalRate currentRate).fxLoss) := by
    rintro ⟨he, hl⟩
    have hmore := hestimate.1 he
    have hless := hloss.1 hl
    have hceil := Int.ceil_lt_add_one (sentUnits sourceAmount)
    have hfloor := Int.lt_floor_add_one (sentUnits sourceAmount + 1 / 2)
    linarith
  constructor
  · rintro ⟨hiff, -⟩
    have hl : ¬ 0 < (calculateFXLoss sourceAmount originalRate currentRate).fxLoss := fun hl => hnever ⟨hiff.2 hl, hl⟩
    have he : ¬ 0 < estimateFXLoss (sourceAmount * originalRate) originalRate currentRate := fun he => hl (hiff.1 he)
    exact ⟨not_lt.1 (mt hloss.2 hl), not_le.1 (mt hestimate.2 he)⟩
  · rintro ⟨hback, hhardly⟩
    have he : ¬ 0 < estimateFXLoss (sourceAmount * originalRate) originalRate currentRate :=
      mt hestimate.1 hhardly.not_ge
    have hl : ¬ 0 < (calculateFXLoss sourceAmount originalRate currentRate).fxLoss := mt hloss.1 hback.not_gt
    exact ⟨iff_of_false he hl, fun h => absurd h he⟩

theorem same_rate_agrees :
    (0 < estimateFXLoss (1000 * 1.25) 1.25 1.25 ↔ 0 < (calculateFXLoss 1000 1.25 1.25).fxLoss) ∧
      (0 < estimateFXLoss (1000 * 1.25) 1.25 1.25 →
        |estimateFXLoss (1000 * 1.25) 1.25 1.25 - (calculateFXLoss 1000 1.25 1.25).fxLoss| ≤ 1 / 10 ^ 8) :=
  (fx_loss_agree_iff 1000 1.25 1.25 (by norm_num) (by norm_num) (by norm_num)).2 (by decide +kernel)

/-- With the reversal at twice the rate half of the amount is lost, which is estimated as a
profit. -/
theorem loss_estimated_as_profit :
    (calculateFXLoss 10000 1 2).fxLoss = 5000 ∧ estimateFXLoss (10000 * 1) 1 2 = -5000 := by
  decide +kernel

end Settla.Compensation
