import Settla.Domain.Fees
import Settla.Lib.Checks

/-!
# Fees between their bounds

`CalculateFee` clamps from below, then from above. A fee never exceeds its maximum, but where the
maximum is below the minimum, the minimum is lost.
-/

namespace Settla

open Lib

/-! ## The two clamps -/

def atLeast (min fee : Decimal) : Decimal := if min ≠ 0 ∧ fee < min then roundPlaces 8 min else fee

def atMost (max fee : Decimal) : Decimal := if max ≠ 0 ∧ max < fee then roundPlaces 8 max else fee

variable {fee min : Decimal} {f : FeeSchedule} {t : FeeType}

theorem atLeast_places (h : roundPlaces 8 fee = fee) : roundPlaces 8 (atLeast min fee) = atLeast min fee := by
  unfold atLeast
  split
  · exact roundPlaces_idem 8 min
  · exact h

theorem atLeast_mono (min : Decimal) {x y : Decimal} (hy : roundPlaces 8 y = y) (h : x ≤ y) :
    atLeast min x ≤ atLeast min y := by
  unfold atLeast
  split_ifs with hlow hlow' hlow'
  · exact le_rfl
  · -- the larger fee is not below the minimum, and has eight places
    have hmin : min ≤ y := not_lt.1 fun hlt => hlow' ⟨hlow.1, hlt⟩
    exact roundPlaces_le hy hmin
  · exact absurd ⟨hlow'.1, h.trans_lt hlow'.2⟩ hlow
  · exact h

theorem atMost_mono (max : Decimal) {x y : Decimal} (hx : roundPlaces 8 x = x) (h : x ≤ y) :
    atMost max x ≤ atMost max y := by
  unfold atMost
  split_ifs with hhigh hhigh' hhigh'
  · exact le_rfl
  · exact absurd ⟨hhigh.1, hhigh.2.trans_le h⟩ hhigh'
  · have hmax : x ≤ max := not_lt.1 fun hlt => hhigh ⟨hhigh'.1, hlt⟩
    exact le_roundPlaces hx hmax
  · exact h

theorem le_atLeast (hfee : roundPlaces 8 fee = fee) (hmin : min ≠ 0) : roundPlaces 8 min ≤ atLeast min fee := by
  unfold atLeast
  split_ifs with hlow
  · exact le_rfl
  · exact roundPlaces_le hfee (not_lt.1 fun hlt => hlow ⟨hmin, hlt⟩)

theorem atMost_le {max : Decimal} (hfee : roundPlaces 8 fee = fee) (hmax : max ≠ 0) :
    atMost max fee ≤ roundPlaces 8 max := by
  unfold atMost
  split_ifs with hhigh
  · exact le_rfl
  · exact le_roundPlaces hfee (not_lt.1 fun hlt => hhigh ⟨hmax, hlt⟩)

/-! ## Fees -/

def rawFee (bps : ℤ) (amount : Decimal) : Decimal := roundPlaces 8 (roundPlaces 16 (amount * bps / 10000))

theorem rawFee_places (bps : ℤ) (amount : Decimal) : roundPlaces 8 (rawFee bps amount) = rawFee bps amount :=
  roundPlaces_idem 8 _

theorem rawFee_mono {bps : ℤ} (hbps : 0 ≤ bps) {a b : Decimal} (h : a ≤ b) : rawFee bps a ≤ rawFee bps b := by
  have hbps : (0 : ℚ) ≤ bps := by exact_mod_cast hbps
  apply roundPlaces_mono
  apply roundPlaces_mono
  have := mul_le_mul_of_nonneg_right h hbps
  linarith

def clampedFee (f : FeeSchedule) (t : FeeType) (amount : Decimal) : Decimal :=
  atMost (f.maxFee t) (atLeast (f.minFee t) (rawFee (f.bps t) amount))

theorem calculateFee_eq (hbps : 0 ≤ f.bps t) (amount : Decimal) :
    f.calculateFee amount t = some (clampedFee f t amount) := by
  unfold FeeSchedule.calculateFee
  rw [if_neg hbps.not_gt]
  rfl

/-- **A larger amount has no smaller fee.** -/
theorem clampedFee_mono (hbps : 0 ≤ f.bps t) {a b : Decimal} (h : a ≤ b) :
    clampedFee f t a ≤ clampedFee f t b := by
  have ha := rawFee_places (f.bps t) a
  have hb := rawFee_places (f.bps t) b
  have hlow := atLeast_mono (f.minFee t) hb (rawFee_mono hbps h)
  exact atMost_mono (f.maxFee t) (atLeast_places ha) hlow

/-- The bounds of a fee type, to eight places; zero is no bound. -/
structure WithinBounds (f : FeeSchedule) (t : FeeType) (fee : Decimal) : Prop where
  min : f.minFee t ≠ 0 → roundPlaces 8 (f.minFee t) ≤ fee
  max : f.maxFee t ≠ 0 → fee ≤ roundPlaces 8 (f.maxFee t)

/-! ## What is validated -/

theorem validateBPS_ok {field : String} {value : ℤ} (h : validateBPS field value = .ok ()) : 0 ≤ value := by
  obtain ⟨hrange, -⟩ := (check_eq_ok _ _ _ _).1 h
  omega

theorem validateMinMax_ok {minField maxField : String} {max : Decimal}
    (h : validateMinMax minField min maxField max = .ok ()) (hmin : min ≠ 0) (hmax : max ≠ 0) : min ≤ max := by
  obtain ⟨hle, -⟩ := (check_eq_ok _ _ _ _).1 h
  exact not_lt.1 fun hlt => hle ⟨hmin, hmax, hlt⟩

structure Validated (f : FeeSchedule) : Prop where
  bps : ∀ t, 0 ≤ f.bps t
  fees : f.minFeeUSD ≠ 0 → f.maxFeeUSD ≠ 0 → f.minFeeUSD ≤ f.maxFeeUSD
  bankFees : f.bankCollectionMinFeeUSD ≠ 0 → f.bankCollectionMaxFeeUSD ≠ 0 →
    f.bankCollectionMinFeeUSD ≤ f.bankCollectionMaxFeeUSD

theorem validate_bounds (h : f.validate = .ok ()) : Validated f := by
  unfold FeeSchedule.validate at h
  simp only [bind_eq_ok] at h
  obtain ⟨_, hon, _, hoff, _, hcrypto, _, hbank, _, hfees, hbankFees⟩ := h
  refine ⟨?_, validateMinMax_ok hfees, validateMinMax_ok hbankFees⟩
  intro t
  cases t with
  | onRamp => exact validateBPS_ok hon
  | offRamp => exact validateBPS_ok hoff
  | cryptoCollection => exact validateBPS_ok hcrypto
  | bankCollection => exact validateBPS_ok hbank

/-- The pairs of bounds that `CalculateFee` uses together and `Validate` does not compare. -/
def UncheckedPairs (f : FeeSchedule) : FeeType → Prop
  | .onRamp => True
  | .offRamp => True
  | .cryptoCollection => f.minFeeUSD ≠ 0 → f.cryptoCollectionMaxFeeUSD ≠ 0 →
      roundPlaces 8 f.minFeeUSD ≤ roundPlaces 8 f.cryptoCollectionMaxFeeUSD
  | .bankCollection => f.bankCollectionMinFeeUSD = 0 → f.minFeeUSD ≠ 0 → f.bankCollectionMaxFeeUSD ≠ 0 →
      roundPlaces 8 f.minFeeUSD ≤ roundPlaces 8 f.bankCollectionMaxFeeUSD

theorem uncheckedPairs_iff (h : Validated f) (t : FeeType) :
    UncheckedPairs f t ↔
      (f.minFee t ≠ 0 → f.maxFee t ≠ 0 → roundPlaces 8 (f.minFee t) ≤ roundPlaces 8 (f.maxFee t)) := by
  have hfees : f.minFeeUSD ≠ 0 → f.maxFeeUSD ≠ 0 → roundPlaces 8 f.minFeeUSD ≤ roundPlaces 8 f.maxFeeUSD :=
    fun hmin hmax => roundPlaces_mono 8 (h.fees hmin hmax)
  cases t with
  | onRamp | offRamp => exact iff_of_true trivial hfees
  | cryptoCollection => exact Iff.rfl
  | bankCollection =>
    by_cases hown : f.bankCollectionMinFeeUSD = 0
    · have hmin : f.minFee .bankCollection = f.minFeeUSD := if_neg fun hc => hc.2 hown
      rw [hmin]
      exact ⟨fun hpair => hpair hown, fun hpair _ => hpair⟩
    · have hmin : f.minFee .bankCollection = f.bankCollectionMinFeeUSD := if_pos ⟨rfl, hown⟩
      rw [hmin]
      exact iff_of_true (fun hzero => absurd hzero hown)
        fun hset hmax => roundPlaces_mono 8 (h.bankFees hset hmax)

/-- **Fees grow with the amount and stay within their bounds** exactly if the bounds that `Validate`
does not compare are in order. -/
theorem fee_bounds_iff (f : FeeSchedule) (t : FeeType) (hvalid : f.validate = .ok ()) :
    (∀ a b, 0 ≤ a → a ≤ b → ∃ feeA feeB, f.calculateFee a t = some feeA ∧ f.calculateFee b t = some feeB ∧
      feeA ≤ feeB ∧ WithinBounds f t feeA ∧ WithinBounds f t feeB) ↔ UncheckedPairs f t := by
  have hv := validate_bounds hvalid
  have hfee := calculateFee_eq (hv.bps t)
  rw [uncheckedPairs_iff hv]
  constructor
  · intro hall hmin hmax
    obtain ⟨fee, -, -, -, -, hwithin, -⟩ := hall 0 0 le_rfl le_rfl
    exact (hwithin.min hmin).trans (hwithin.max hmax)
  · intro hroom a b _ hab
    have hwithin : ∀ amount, WithinBounds f t (clampedFee f t amount) := by
      intro amount
      refine ⟨fun hmin => ?_, atMost_le (atLeast_places (rawFee_places _ _))⟩
      unfold clampedFee atMost
      split_ifs with hhigh
      · exact hroom hmin hhigh.1
      · exact le_atLeast (rawFee_places (f.bps t) amount) hmin
    exact ⟨_, _, hfee a, hfee b, clampedFee_mono (hv.bps t) hab, hwithin a, hwithin b⟩

def sampleSchedule : FeeSchedule :=
  { cryptoCollectionBPS := 30, minFeeUSD := 1, maxFeeUSD := 20, cryptoCollectionMaxFeeUSD := 10 }

theorem sampleSchedule_bounds : sampleSchedule.validate = .ok () ∧
    ∀ a b, 0 ≤ a → a ≤ b → ∃ feeA feeB, sampleSchedule.calculateFee a .cryptoCollection = some feeA ∧
      sampleSchedule.calculateFee b .cryptoCollection = some feeB ∧ feeA ≤ feeB ∧
      WithinBounds sampleSchedule .cryptoCollection feeA ∧ WithinBounds sampleSchedule .cryptoCollection feeB := by
  have hvalid : sampleSchedule.validate = .ok () := by decide +kernel
  have hpairs : UncheckedPairs sampleSchedule .cryptoCollection := fun _ _ => by decide +kernel
  exact ⟨hvalid, (fee_bounds_iff sampleSchedule .cryptoCollection hvalid).2 hpairs⟩

def lowMaximum : FeeSchedule :=
  { cryptoCollectionBPS := 30, minFeeUSD := 5, maxFeeUSD := 10, cryptoCollectionMaxFeeUSD := 1 }

/-- **A fee below its minimum**: the schedule is accepted. -/
theorem fee_below_minimum :
    lowMaximum.validate = .ok () ∧ lowMaximum.calculateFee 100 .cryptoCollection = some 1 ∧
      lowMaximum.minFee .cryptoCollection = 5 ∧ ¬ WithinBounds lowMaximum .cryptoCollection 1 := by
  have hmin : lowMaximum.minFee .cryptoCollection = 5 := by decide +kernel
  refine ⟨by decide +kernel, by decide +kernel, hmin, fun hwithin => ?_⟩
  have hle := hwithin.min (by rw [hmin]; decide)
  exact absurd hle (by decide +kernel)

end Settla
