import Settla.Ledger.TigerBeetle

/-!
# Amounts in TigerBeetle

An amount is a number of units of `10⁻⁸` in 64 bits without a sign; on the way to a decimal and
back it is a signed integer of the Go runtime.
-/

namespace Settla.Ledger

open Lib

variable (x : UInt64)

theorem signed_eq : x.toInt64.toInt = if x.toNat < 2 ^ 63 then (x.toNat : ℤ) else x.toNat - 2 ^ 64 := by
  have hcond : x.toInt64.toInt = if 2 * x.toNat < 2 ^ 64 then (x.toNat : ℤ) else x.toNat - (2 ^ 64 : ℕ) :=
    BitVec.toInt_eq_toNat_cond x.toBitVec
  rw [hcond]
  by_cases hx : x.toNat < 2 ^ 63
  · rw [if_pos hx, if_pos (by omega)]
  · rw [if_neg hx, if_neg (by omega)]
    norm_num

theorem tbAmountToDecimal_eq : tbAmountToDecimal x = x.toInt64.toInt / 10 ^ 8 := by
  have hgrid : ((x.toInt64.toInt : ℚ) / 10 ^ 8) * 10 ^ 16 = ((x.toInt64.toInt * 10 ^ 8 : ℤ) : ℚ) := by
    push_cast
    ring
  have hscale : amountScale = 10 ^ 8 := by norm_num [amountScale]
  unfold tbAmountToDecimal
  exact roundPlaces_eq hgrid

theorem decimalToTBAmount_eq {d : Decimal} {m : ℤ} (hm : intPart (d * 10 ^ 8) = m) :
    decimalToTBAmount d = if m < 0 then none else some (m.toNat % 2 ^ 64) := by
  have hscaled : truncPlaces 8 d * amountScale = m := by
    rw [truncPlaces, hm, amountScale]
    norm_num
  unfold decimalToTBAmount
  dsimp only
  rw [hscaled, intPart_intCast]
  simp only [Int.cast_lt_zero]

theorem read_written : decimalToTBAmount (tbAmountToDecimal x) = some x.toNat ↔ x.toNat < 2 ^ 63 := by
  have hunits : intPart (tbAmountToDecimal x * 10 ^ 8) = x.toInt64.toInt := by
    rw [tbAmountToDecimal_eq, div_mul_cancel₀ _ (by norm_num), intPart_intCast]
  rw [decimalToTBAmount_eq hunits, signed_eq]
  have hlt := x.toNat_lt
  by_cases hx : x.toNat < 2 ^ 63
  · have hmod : x.toNat % 2 ^ 64 = x.toNat := Nat.mod_eq_of_lt (by omega)
    rw [if_pos hx, if_neg (by omega), Int.toNat_natCast, hmod]
    exact iff_of_true rfl hx
  · rw [if_neg hx, if_pos (by omega)]
    exact iff_of_false nofun hx

theorem written_read {d : Decimal} (hd : 0 ≤ d) :
    (decimalToTBAmount d = none ∨
      ∃ y, decimalToTBAmount d = some y ∧ tbAmountToDecimal (UInt64.ofNat y) = truncPlaces 8 d) ↔
      d * 10 ^ 8 < 2 ^ 63 := by
  have hscaled : 0 ≤ d * 10 ^ 8 := by positivity
  obtain ⟨n, hn⟩ : ∃ n : ℕ, intPart (d * 10 ^ 8) = n := ⟨_, (Int.toNat_of_nonneg (intPart_nonneg hscaled)).symm⟩
  have hunits : decimalToTBAmount d = some (n % 2 ^ 64) := by
    rw [decimalToTBAmount_eq hn, if_neg (by omega), Int.toNat_natCast]
  have hsmall : d * 10 ^ 8 < 2 ^ 63 ↔ n < 2 ^ 63 := by
    have hfloor : ⌊d * 10 ^ 8⌋ < (2 ^ 63 : ℤ) ↔ d * 10 ^ 8 < ((2 ^ 63 : ℤ) : ℚ) := Int.floor_lt
    rw [← intPart_eq_floor hscaled, hn, Int.cast_pow, Int.cast_ofNat] at hfloor
    rw [← hfloor]
    omega
  have hword : (UInt64.ofNat (n % 2 ^ 64)).toNat = n % 2 ^ 64 :=
    UInt64.toNat_ofNat_of_lt' (Nat.mod_lt _ (by norm_num))
  have hback : tbAmountToDecimal (UInt64.ofNat (n % 2 ^ 64)) = truncPlaces 8 d ↔
      (UInt64.ofNat (n % 2 ^ 64)).toInt64.toInt = n := by
    rw [tbAmountToDecimal_eq, truncPlaces, hn, div_left_inj' (by norm_num)]
    norm_cast
  rw [hunits, hsmall]
  simp only [reduceCtorEq, Option.some.injEq, exists_eq_left', false_or]
  rw [hback, signed_eq, hword]
  split <;> omega

/-- **The amount codec.** Reading and writing an amount gives it back exactly below `2⁶³` units.
Writing a decimal gives an error, or an amount that reads as the decimal to eight places, exactly if
it has fewer than `2⁶³` units. -/
theorem amount_codec (x : UInt64) (d : Decimal) (hd : 0 ≤ d) :
    (decimalToTBAmount (tbAmountToDecimal x) = some x.toNat ↔ x.toNat < 2 ^ 63) ∧
      ((decimalToTBAmount d = none ∨
        ∃ y, decimalToTBAmount d = some y ∧ tbAmountToDecimal (UInt64.ofNat y) = truncPlaces 8 d) ↔
        d * 10 ^ 8 < 2 ^ 63) :=
  ⟨read_written x, written_read hd⟩

theorem unit_codec :
    (decimalToTBAmount (tbAmountToDecimal 1) = some 1 ↔ 1 < 2 ^ 63) ∧
      ((decimalToTBAmount (1 / 3) = none ∨
        ∃ y, decimalToTBAmount (1 / 3) = some y ∧ tbAmountToDecimal (UInt64.ofNat y) = truncPlaces 8 (1 / 3)) ↔
        (1 / 3 : Decimal) * 10 ^ 8 < 2 ^ 63) :=
  amount_codec 1 (1 / 3) (by norm_num)

/-- The first amount with the highest bit set reads as a negative decimal; one of `2⁶⁴` units is
written as nothing. -/
theorem high_amounts :
    tbAmountToDecimal 9223372036854775808 = -92233720368.54775808 ∧
      decimalToTBAmount (tbAmountToDecimal 9223372036854775808) = none ∧
      decimalToTBAmount 184467440737.09551616 = some 0 ∧
      tbAmountToDecimal 0 ≠ truncPlaces 8 184467440737.09551616 := by
  decide +kernel

end Settla.Ledger
