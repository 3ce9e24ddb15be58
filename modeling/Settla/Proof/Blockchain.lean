import Mathlib.Data.List.TakeWhile
import Mathlib.Data.Nat.Digits.Lemmas
import Settla.Rail.Blockchain

/-!
# Amounts and nonces on the chain

A quotient of more than 16 places is rounded, and an amount beyond 256 bits runs over the address in the call
data. A call that fails gives all nonces back, also those that others hold.
-/

namespace Settla.Rail

open Ethereum Lib List Solana

/-! ## Amounts -/

theorem decodeUint256_encodeERC20Transfer (toAddr : Fin 20 → ℕ) {m : ℕ} (hm : m < 2 ^ 256) :
    (encodeERC20Transfer toAddr m).map (fun data => decodeUint256 (data.drop 36)) = some m := by
  have hlen : (Nat.digits 256 m).length ≤ 32 := (Nat.digits_length_le_iff (by decide) m).2 (by simpa using hm)
  unfold encodeERC20Transfer bytes
  rw [Int.natAbs_natCast]
  generalize hhead : selectorTransfer ++ _ ++ _ = head
  have hhead : head.length = 36 := by simp [← hhead, selectorTransfer]
  dsimp only
  rw [length_reverse, if_neg (by omega), Option.map_some, drop_append_of_le_length (by simp; omega), drop_take,
    drop_left' hhead, take_replicate, Nat.min_eq_left (by omega), decodeUint256, if_neg (by simp; omega),
    take_of_length_le (by simp; omega)]
  simp [Nat.ofDigits_append_replicate_zero, Nat.ofDigits_digits]

theorem decodeUint256_lt {word : List ℕ} (h : ∀ b ∈ word, b < 256) : decodeUint256 word < 2 ^ 256 := by
  unfold decodeUint256
  split
  · positivity
  · rename_i hlen
    have hlt : Nat.ofDigits 256 (word.take 32).reverse < 256 ^ (word.take 32).reverse.length :=
      Nat.ofDigits_lt_base_pow_length (by decide) fun b hb => h b (mem_of_mem_take (mem_reverse.1 hb))
    rw [length_reverse, length_take, Nat.min_eq_left (by omega)] at hlt
    exact hlt

theorem decode_encode_iff (toAddr : Fin 20 → ℕ) (m : ℕ) :
    (encodeERC20Transfer toAddr m).map (fun data => decodeUint256 (data.drop 36)) = some m ↔ m < 2 ^ 256 := by
  refine ⟨fun h => not_le.1 fun hm => ?_, decodeUint256_encodeERC20Transfer toAddr⟩
  -- the amount fills the last word, and a word is below 2 ^ 256
  have hlen : 32 < (bytes m).length := by
    have : ¬ (Nat.digits 256 m).length ≤ 32 := fun hle =>
      hm.not_gt (by simpa using (Nat.digits_length_le_iff (by decide) m).1 hle)
    simpa [bytes] using this
  obtain ⟨data, hdata, hword⟩ := Option.map_eq_some_iff.1 h
  simp only [encodeERC20Transfer, Option.ite_none_left_eq_some, Option.some.injEq] at hdata
  obtain ⟨-, rfl⟩ := hdata
  refine (decodeUint256_lt fun b hb => ?_).not_ge (hm.trans_eq hword.symm)
  rw [drop_append, drop_of_length_le (by simp; omega), nil_append] at hb
  exact Nat.digits_lt_base (by decide) (mem_reverse.1 (mem_of_mem_drop hb))

theorem toOnChainAmount_iff (n d : ℕ) :
    toOnChainAmount (fromOnChainAmount n d) d = n ↔ 10 ^ (d - 16) ∣ n := by
  have hpos : (0 : ℚ) < 10 ^ d := by positivity
  unfold toOnChainAmount fromOnChainAmount
  constructor
  · intro h
    rcases le_total d 16 with hd | hd
    · simp [Nat.sub_eq_zero_of_le hd]
    -- what the rounded quotient comes to is a whole multiple
    obtain ⟨m, hm⟩ := roundPlaces_grid 16 ((n : ℤ) / 10 ^ d : ℚ)
    generalize roundPlaces 16 ((n : ℤ) / 10 ^ d : ℚ) = q at hm h
    have hmul : q * 10 ^ d = ((m * 10 ^ (d - 16) : ℤ) : ℚ) := by
      rw [← Nat.add_sub_of_le hd, pow_add, ← mul_assoc, hm]
      simp
    rw [hmul, intPart_intCast] at h
    have : (10 ^ (d - 16) : ℤ) ∣ n := ⟨m, by rw [← h, mul_comm]⟩
    exact_mod_cast this
  · rintro ⟨k, rfl⟩
    -- the quotient has no more than 16 places
    have hgrid : (((10 ^ (d - 16) * k : ℕ) : ℤ) / 10 ^ d : ℚ) * 10 ^ 16 = ((k * 10 ^ (16 - d) : ℤ) : ℚ) := by
      have hshift : (10 : ℚ) ^ (d - 16) * 10 ^ 16 = 10 ^ (16 - d) * 10 ^ d := by
        rw [← pow_add, ← pow_add]
        congr 1
        omega
      rw [div_mul_eq_mul_div, div_eq_iff hpos.ne']
      push_cast
      rw [mul_right_comm, hshift]
      ring
    rw [roundPlaces_eq hgrid, div_mul_cancel₀ _ hpos.ne', intPart_intCast]

/-- **Amounts survive the conversions** exactly if 16 places and 256 bits are enough for them. -/
theorem onChain_exact (toAddr : Fin 20 → ℕ) (n d : ℕ) (a : Decimal) :
    (toOnChainAmount (fromOnChainAmount n d) d = n ↔ 10 ^ (d - 16) ∣ n) ∧
    (0 < n → n < 2 ^ 64 → decimalToRawAmount (rawAmountToDecimal n d) d = .ok n) ∧
    (0 ≤ a → ((encodeERC20Transfer toAddr (toOnChainAmount a d)).map (fun data => decodeUint256 (data.drop 36)) =
      some ⌊a * 10 ^ d⌋₊ ↔ a * 10 ^ d < 2 ^ 256)) := by
  have hpos : (0 : ℚ) < 10 ^ d := by positivity
  refine ⟨toOnChainAmount_iff n d, fun hn hlt => ?_, fun ha => ?_⟩
  · have hraw : rawAmountToDecimal n d * 10 ^ d = (n : ℤ) := div_mul_cancel₀ _ hpos.ne'
    have hnot : ¬ rawAmountToDecimal n d ≤ 0 := not_le.2 (div_pos (by exact_mod_cast hn) hpos)
    unfold decimalToRawAmount
    rw [if_neg hnot, hraw]
    dsimp only
    rw [intPart_intCast, if_pos (by exact_mod_cast hlt), Int.toNat_natCast]
  · have hnonneg : 0 ≤ a * 10 ^ d := by positivity
    rw [toOnChainAmount, intPart_eq_floor hnonneg, ← Int.natCast_floor_eq_floor hnonneg, decode_encode_iff,
      Nat.floor_lt hnonneg]
    norm_num

/-- The largest word, and 1.5 units of a token with 18 decimals. -/
theorem onChain_exact_word :
    toOnChainAmount (fromOnChainAmount 1500000000000000000 18) 18 = 1500000000000000000 ∧
    (encodeERC20Transfer (fun _ => 0) (toOnChainAmount (2 ^ 256 - 1) 0)).map (fun data => decodeUint256 (data.drop 36)) =
      some ⌊((2 : ℚ) ^ 256 - 1) * 10 ^ 0⌋₊ :=
  ⟨(onChain_exact (fun _ => 0) 1500000000000000000 18 0).1.2 (by norm_num),
    ((onChain_exact (fun _ => 0) 0 0 (2 ^ 256 - 1)).2.2 (by norm_num)).2 (by norm_num)⟩

theorem onChain_inexact : toOnChainAmount (fromOnChainAmount 1 18) 18 = 0 ∧
    encodeERC20Transfer (fun _ => 0) (toOnChainAmount (2 ^ 544) 0) = none := by
  constructor
  · norm_num [toOnChainAmount, fromOnChainAmount, roundPlaces, intPart]
  · decide +kernel

/-! ## Nonces -/

/-- A call fails only alone in flight, as the last to have taken a nonce. -/
def FailsLast (a : Nonces) : SendStep → Prop
  | .fail nonce => a.held = [nonce] ∧ a.entry = some (nonce + 1)
  | _ => True

/-- The nonces taken are consecutive, and the next one is in the entry or known to the node. -/
structure Consecutive (a : Nonces) : Prop where
  taken : a.sent ++ a.held ~ range (a.sent ++ a.held).length
  next : a.entry = some (a.sent ++ a.held).length ∨ a.entry = none ∧ a.held = []

theorem consecutive_step (a : Nonces) (s : SendStep) (h : Consecutive a) (hlast : FailsLast a s) :
    Consecutive (a.step s) := by
  have htaken := h.taken
  cases s with
  | next answers =>
    have hnext : ∀ n, (a.entry <|> if answers then some (pendingNonceAt a.sent) else none) = some n →
        n = (a.sent ++ a.held).length := by
      rintro n hn
      obtain he | ⟨he, hheld⟩ := h.next
      · rw [he] at hn
        exact (Option.some.inj hn).symm
      · rw [hheld, append_nil] at htaken ⊢
        have hpending : pendingNonceAt a.sent = a.sent.length := by
          rw [pendingNonceAt, takeWhile_eq_self_iff.2 fun n hn => by simpa using htaken.mem_iff.2 hn, length_range]
        rw [he, hpending] at hn
        cases answers <;> cases hn
        rfl
    simp only [Nonces.step]
    split
    · exact h
    · rename_i n hn
      cases hnext n hn
      have hlen : (a.sent ++ (a.held ++ [(a.sent ++ a.held).length])).length = (a.sent ++ a.held).length + 1 := by
        simp [add_assoc]
      refine ⟨?_, .inl (congrArg some hlen.symm)⟩
      dsimp only
      rw [hlen, range_succ, ← append_assoc]
      exact htaken.append_right _
  | broadcast nonce =>
    simp only [Nonces.step]
    split
    · rename_i hmem
      have hperm : a.sent ++ [nonce] ++ a.held.erase nonce ~ a.sent ++ a.held := by
        rw [append_assoc]
        exact (perm_cons_erase hmem).symm.append_left _
      refine ⟨(hperm.trans htaken).trans (hperm.length_eq ▸ .rfl), ?_⟩
      obtain he | ⟨-, hheld⟩ := h.next
      · exact .inl (he.trans (congrArg some hperm.length_eq.symm))
      · rw [hheld] at hmem
        cases hmem
    · exact h
  | fail nonce =>
    obtain ⟨hheld, he⟩ := hlast
    obtain hnext | ⟨hnone, -⟩ := h.next
    · -- the nonce given back is the last of those taken
      rw [hheld, length_append, length_singleton] at htaken hnext
      cases he.symm.trans hnext
      simp only [Nonces.step]
      rw [if_pos (by simp [hheld]), hheld]
      rw [range_succ] at htaken
      exact ⟨by simpa using (perm_append_right_iff _).1 htaken, .inr ⟨rfl, by simp⟩⟩
    · cases he.symm.trans hnone

/-- **Nonces are consecutive** if every call that fails is the last one. -/
theorem nonces_consecutive (steps : List SendStep) (h : Along Nonces.step FailsLast {} steps) :
    let a := run Nonces.step {} steps
    a.sent.Nodup ∧ (a.held = [] → ∀ n, n ∈ a.sent ↔ n < a.sent.length) := by
  have hinit : Consecutive {} := ⟨.nil, .inr ⟨rfl, rfl⟩⟩
  have htaken := (run_preserves consecutive_step hinit h).taken
  refine ⟨(htaken.nodup_iff.2 nodup_range).of_append_left, fun hheld n => ?_⟩
  rw [hheld, append_nil] at htaken
  rw [htaken.mem_iff, mem_range]

/-- Two calls overlap; the second one fails and is made again. -/
theorem nonces_of_retry :
    (run Nonces.step {} [.next true, .next true, .broadcast 0, .fail 1, .next true, .broadcast 1]).sent.Nodup :=
  (nonces_consecutive [.next true, .next true, .broadcast 0, .fail 1, .next true, .broadcast 1]
    ⟨trivial, trivial, trivial, ⟨rfl, rfl⟩, trivial, trivial, trivial⟩).1

/-- The second of three calls fails, and the other two broadcast. -/
theorem nonces_gap :
    let a := run Nonces.step {} [.next true, .next true, .next true, .fail 1, .broadcast 0, .broadcast 2]
    a.held = [] ∧ a.sent = [0, 2] := by decide

end Settla.Rail
