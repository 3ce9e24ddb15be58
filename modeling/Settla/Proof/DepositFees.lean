import Settla.Core.BankDeposit
import Settla.Proof.Fees

/-!
# The fee of a deposit and the deposit

Minimum and maximum are amounts, not shares of the deposit, and nothing keeps them from being
negative. The share itself is at most the deposit, but it is rounded to eight places.
-/

namespace Settla

open Lib

variable {f : FeeSchedule} {t : FeeType} {r fee min : Decimal}

theorem validate_bps_le (h : f.validate = .ok ()) (t : FeeType) : f.bps t ≤ 10000 := by
  have hle : ∀ {field value}, validateBPS field value = .ok () → value ≤ 10000 := fun hok => by
    obtain ⟨hrange, -⟩ := (check_eq_ok _ _ _ _).1 hok
    omega
  unfold FeeSchedule.validate at h
  simp only [bind_eq_ok] at h
  obtain ⟨_, hon, _, hoff, _, hcrypto, _, hbank, -⟩ := h
  cases t with
  | onRamp => exact hle hon
  | offRamp => exact hle hoff
  | cryptoCollection => exact hle hcrypto
  | bankCollection => exact hle hbank

theorem roundPlaces_zero (s : ℕ) : roundPlaces s 0 = 0 := roundPlaces_eq (m := 0) (by simp)

theorem rawFee_nonneg {bps : ℤ} (hbps : 0 ≤ bps) (hr : 0 ≤ r) : 0 ≤ rawFee bps r := by
  have hzero : rawFee bps 0 = 0 := by simp [rawFee, roundPlaces_zero]
  rw [← hzero]
  exact rawFee_mono hbps hr

/-- The share of an amount with at most eight places is no more than the amount. -/
theorem rawFee_le {bps : ℤ} (hbps : bps ≤ 10000) (hr : 0 ≤ r) (hplaces : roundPlaces 8 r = r) :
    rawFee bps r ≤ r := by
  have hbps : (bps : ℚ) ≤ 10000 := by exact_mod_cast hbps
  have hshare : r * bps / 10000 ≤ r := by
    have := mul_le_mul_of_nonneg_left hbps hr
    linarith
  have hsixteen : roundPlaces 16 r = r := by
    obtain ⟨m, hm⟩ := roundPlaces_grid 8 r
    rw [hplaces] at hm
    refine roundPlaces_eq (m := m * 10 ^ 8) ?_
    push_cast
    rw [← hm]
    ring
  exact roundPlaces_le hplaces (roundPlaces_le hsixteen hshare)

theorem atLeast_le_iff (hfee : roundPlaces 8 fee = fee) (hr : 0 ≤ r) :
    atLeast min fee ≤ r ↔ fee ≤ r ∧ roundPlaces 8 min ≤ r := by
  by_cases hmin : min = 0
  · simp [atLeast, hmin, roundPlaces_zero, hr]
  · constructor
    · intro hle
      refine ⟨le_trans ?_ hle, (le_atLeast hfee hmin).trans hle⟩
      unfold atLeast
      split_ifs with hlow
      · exact le_roundPlaces hfee hlow.2.le
      · exact le_rfl
    · rintro ⟨hfee, hmin⟩
      unfold atLeast
      split_ifs
      · exact hmin
      · exact hfee

theorem atMost_le_iff {max : Decimal} (hfee : roundPlaces 8 fee = fee) :
    atMost max fee ≤ r ↔ fee ≤ r ∨ max ≠ 0 ∧ roundPlaces 8 max ≤ r := by
  constructor
  · intro hle
    unfold atMost at hle
    split_ifs at hle with hhigh
    · exact .inr ⟨hhigh.1, hle⟩
    · exact .inl hle
  · rintro (hle | ⟨hset, hle⟩)
    · unfold atMost
      split_ifs with hhigh
      · exact (roundPlaces_le hfee hhigh.2.le).trans hle
      · exact hle
    · exact (atMost_le hfee hset).trans hle

theorem atMost_nonneg_iff {max : Decimal} (hfee : 0 ≤ fee) : 0 ≤ atMost max fee ↔ 0 ≤ roundPlaces 8 max := by
  unfold atMost
  split_ifs with hhigh
  · exact Iff.rfl
  · refine iff_of_true hfee (roundPlaces_nonneg 8 ?_)
    by_contra hneg
    exact hhigh ⟨by rintro rfl; exact hneg le_rfl, (not_le.1 hneg).trans_le hfee⟩

/-- The maximum is not negative, and one of the bounds, or the share, keeps the fee from exceeding the
deposit. -/
def FeeFits (f : FeeSchedule) (t : FeeType) (r : Decimal) : Prop :=
  0 ≤ roundPlaces 8 (f.maxFee t) ∧
    (rawFee (f.bps t) r ≤ r ∧ roundPlaces 8 (f.minFee t) ≤ r ∨
      f.maxFee t ≠ 0 ∧ roundPlaces 8 (f.maxFee t) ≤ r)

theorem clampedFee_fits_iff (hbps : 0 ≤ f.bps t) (hr : 0 < r) :
    0 ≤ clampedFee f t r ∧ clampedFee f t r ≤ r ↔ FeeFits f t r := by
  have hplaces := rawFee_places (f.bps t) r
  have hraw := rawFee_nonneg hbps hr.le
  have hlow : 0 ≤ atLeast (f.minFee t) (rawFee (f.bps t) r) := by
    unfold atLeast
    split_ifs with hmin
    · exact roundPlaces_nonneg 8 (hraw.trans hmin.2.le)
    · exact hraw
  unfold clampedFee FeeFits
  rw [atMost_nonneg_iff hlow, atMost_le_iff (atLeast_places hplaces), atLeast_le_iff hplaces hr.le]

/-- **The fee of a deposit is between zero and the deposit** exactly if `FeeFits`. With at most eight
places the share itself always fits. -/
theorem collection_fee_fits_iff (f : FeeSchedule) (r : Decimal) (hvalid : f.validate = .ok ()) (hr : 0 < r) :
    (0 ≤ Deposit.calculateCollectionFee r f ∧ Deposit.calculateCollectionFee r f ≤ r ↔
        FeeFits f .cryptoCollection r) ∧
      (0 ≤ BankDeposit.calculateBankCollectionFee r f ∧ BankDeposit.calculateBankCollectionFee r f ≤ r ↔
        FeeFits f .bankCollection r) ∧
      (roundPlaces 8 r = r → ∀ t, rawFee (f.bps t) r ≤ r) := by
  have hbps := (validate_bounds hvalid).bps
  unfold Deposit.calculateCollectionFee BankDeposit.calculateBankCollectionFee
  rw [calculateFee_eq (hbps _), calculateFee_eq (hbps _)]
  exact ⟨clampedFee_fits_iff (hbps _) hr, clampedFee_fits_iff (hbps _) hr,
    fun hplaces t => rawFee_le (validate_bps_le hvalid t) hr.le hplaces⟩

def minimumOfOne : FeeSchedule := { cryptoCollectionBPS := 30, bankCollectionBPS := 30, minFeeUSD := 1 }

/-- A hundred dollars bear a minimum of one dollar. -/
theorem hundred_fits :
    minimumOfOne.validate = .ok () ∧
      0 ≤ Deposit.calculateCollectionFee 100 minimumOfOne ∧ Deposit.calculateCollectionFee 100 minimumOfOne ≤ 100 :=
  have hvalid : minimumOfOne.validate = .ok () := by decide +kernel
  have hfits : FeeFits minimumOfOne .cryptoCollection 100 := by unfold FeeFits; decide +kernel
  ⟨hvalid, (collection_fee_fits_iff minimumOfOne 100 hvalid (by norm_num)).1.2 hfits⟩

/-- **A fee of twice the deposit**: fifty cents, with a minimum of one dollar. -/
theorem fee_exceeds_deposit :
    minimumOfOne.validate = .ok () ∧ (0 : Decimal) < 1 / 2 ∧
      Deposit.calculateCollectionFee (1 / 2) minimumOfOne = 1 ∧
      BankDeposit.calculateBankCollectionFee (1 / 2) minimumOfOne = 1 := by
  decide +kernel

end Settla
