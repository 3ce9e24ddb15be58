import Settla.Rail.Oracle

/-!
# The slippage check in an unmoved market

The rate of a quote is that from the source to the destination. The on-ramp compares it with the rate to the
dollar, the off-ramp with the rate from the dollar.
-/

namespace Settla.Rail

open Lib Router

def Jitter (j : Decimal) : Prop := |j| ≤ 15 / 10000

instance : DecidablePred Jitter := fun _ => inferInstanceAs (Decidable (_ ≤ _))

/-- The live rates that pass deviate by less than this: 2%, and what the division does not keep. -/
def deviation : Decimal := maxSlippage + 1 / (2 * 10 ^ 16)

/-- `QuotedRate` of both intents: the rate of the corridor, as `transfers.fx_rate NUMERIC(28,12)` has it. -/
def quotedRate (result : RouteResult) : Decimal := roundPlaces 12 result.rate

/-- The part of a corridor rate that the two spreads leave. -/
def spreads : Decimal := 992015 / 1000000

/-- A leg with rate `x` passes in a corridor whose other leg has rate `y`: its least and its greatest live rate
are close enough to the least and the greatest rate that can be quoted, if that is not zero. -/
def Passes (x y : Decimal) : Prop :=
  ∀ q ∈ [roundPlaces 12 (x * y * spreads * (1 - 15 / 10000) ^ 2), roundPlaces 12 (x * y * spreads * (1 + 15 / 10000) ^ 2)],
    0 < q → (1 - deviation) * q < x * (1 - 15 / 10000) ∧ x * (1 + 15 / 10000) < (1 + deviation) * q

instance (x y : Decimal) : Decidable (Passes x y) := inferInstanceAs (Decidable (∀ q ∈ [_, _], _ → _ ∧ _))

theorem Jitter.bounds {j : Decimal} (h : Jitter j) : 1 - 15 / 10000 ≤ 1 + j ∧ 1 + j ≤ 1 + 15 / 10000 := by
  have := abs_le.1 h
  constructor <;> linarith

theorem getRate_jitter {base : Currency → Option Decimal} {x : Decimal} {source target : Currency}
    (h : getRate base 0 source target = .ok x) (j : Decimal) : getRate base j source target = .ok (x * (1 + j)) := by
  unfold getRate at h ⊢
  split at h
  · cases h
  · cases h
  · cases h
    rw [add_zero, mul_one]

variable {estimated : Currency → Int64} {req : QuoteRequest}

theorem onQuote_rate {rate : Decimal} {q : ProviderQuote}
    (h : (OnRampProvider.getQuote estimated (.ok rate) req).toOption = some q) :
    q.rate = rate * ((10000 - 50) / 10000) := by
  unfold OnRampProvider.getQuote at h
  split_ifs at h <;> cases h
  rfl

theorem offQuote_rate {rate : Decimal} {q : ProviderQuote}
    (h : (OffRampProvider.getQuote estimated (.ok rate) req).toOption = some q) : q.rate = rate * (1 - 30 / 10000) := by
  unfold OffRampProvider.getQuote at h
  split_ifs at h <;> cases h
  rfl

section Execute

variable {e : RampEnv} {amount rate quoted q l : Decimal} {source target : Currency} {reference : String}

theorem onRamp_not_slippage {p : OnRampProvider} (hrate : e.rate = .ok rate) (hok : slippageOK quoted rate = true) :
    (p.execute e amount source target reference quoted).2 ≠ .error (.slippage q l) := by
  unfold OnRampProvider.execute
  simp only [hrate, hok, Bool.not_true, Bool.false_eq_true, if_false]
  repeat' split
  all_goals nofun

variable {meanwhile : List OffRampProgress}

theorem start_not_slippage {p : OffRampProvider} :
    (p.start e meanwhile source reference).2 ≠ .error (.slippage q l) := by
  unfold OffRampProvider.start
  split <;> nofun

theorem offRamp_not_slippage {p : OffRampProvider} (hrate : e.rate = .ok rate) (hok : slippageOK quoted rate = true) :
    (p.execute e meanwhile amount source target reference quoted).2 ≠ .error (.slippage q l) := by
  unfold OffRampProvider.execute
  simp only [hrate, hok, Bool.not_true, Bool.false_eq_true, if_false, ite_self]
  repeat' split
  all_goals first | exact start_not_slippage | nofun

end Execute

/-! ## The extreme jitters -/

theorem roundPlaces_le_maxSlippage {d : Decimal} (h : 0 ≤ d) : roundPlaces 16 d ≤ maxSlippage ↔ d < deviation := by
  rw [roundPlaces_of_nonneg 16 h, div_le_iff₀ (by positivity)]
  have hgrid : maxSlippage * 10 ^ 16 = ((2 * 10 ^ 14 : ℤ) : ℚ) := by norm_num [maxSlippage]
  rw [hgrid, Int.cast_le, ← Int.lt_add_one_iff, Int.floor_lt, deviation,
    ← mul_lt_mul_iff_left₀ (b := d) (a := 10 ^ 16) (by positivity)]
  push_cast
  rw [add_mul, hgrid]
  push_cast
  constructor <;> intro h <;> linarith

theorem slippageOK_iff (quoted live : Decimal) :
    slippageOK quoted live = true ↔
      (0 < quoted → (1 - deviation) * quoted < live ∧ live < (1 + deviation) * quoted) := by
  rcases le_or_gt quoted 0 with hzero | hpos
  · simp [slippageOK, hzero]
  · have hdiv : 0 ≤ |live - quoted| / quoted := by positivity
    have hclose : slippageOK quoted live = true ↔ |live - quoted| < deviation * quoted := by
      rw [← div_lt_iff₀ hpos, ← roundPlaces_le_maxSlippage hdiv]
      simp [slippageOK, hpos]
    rw [hclose, abs_lt]
    simp only [hpos, forall_const]
    constructor <;> rintro ⟨hlo, hhi⟩ <;> constructor <;> linarith

/-- A corridor rate that can round to zero is never above the least positive one. -/
theorem roundPlaces_le_of_pos {z z' z'' : Decimal} (hz : 0 ≤ z) (hzero : roundPlaces 12 z ≤ 0) (hz' : 0 ≤ z')
    (hpos : 0 < roundPlaces 12 z') (hz'' : 0 ≤ z'') (hle : z'' ≤ 3 * z) : roundPlaces 12 z'' ≤ roundPlaces 12 z' := by
  rw [roundPlaces_of_nonneg 12 hz, div_le_iff₀ (by positivity), zero_mul] at hzero
  rw [roundPlaces_of_nonneg 12 hz', lt_div_iff₀ (by positivity), zero_mul] at hpos
  rw [roundPlaces_of_nonneg 12 hz', roundPlaces_of_nonneg 12 hz'']
  have hfloor : z * 10 ^ 12 + 1 / 2 < 1 := by
    have : ⌊z * 10 ^ 12 + 1 / 2⌋ < 1 := by exact_mod_cast hzero.trans_lt one_pos
    exact_mod_cast Int.floor_lt.1 this
  have hone : ⌊z'' * 10 ^ 12 + 1 / 2⌋ < 2 := Int.floor_lt.2 (by push_cast; linarith)
  have hpos' : 0 < ⌊z' * 10 ^ 12 + 1 / 2⌋ := by exact_mod_cast hpos
  have hle : ⌊z'' * 10 ^ 12 + 1 / 2⌋ ≤ ⌊z' * 10 ^ 12 + 1 / 2⌋ := by omega
  gcongr

/-- **All jitters pass exactly if the extreme ones do.** -/
theorem slippageOK_all {x y : Decimal} (hx : 0 < x) (hy : 0 < y) :
    (∀ j₁ j₂ j, Jitter j₁ → Jitter j₂ → Jitter j →
      slippageOK (roundPlaces 12 (x * y * spreads * ((1 + j₁) * (1 + j₂)))) (x * (1 + j)) = true) ↔ Passes x y := by
  have hcorridor : 0 < x * y * spreads := by unfold spreads; positivity
  constructor
  · intro h
    have hleast : Jitter (-(15 / 10000)) := by decide +kernel
    have hmost : Jitter (15 / 10000) := by decide +kernel
    have hextreme : ∀ j, Jitter j →
        0 < roundPlaces 12 (x * y * spreads * (1 + j) ^ 2) →
          (1 - deviation) * roundPlaces 12 (x * y * spreads * (1 + j) ^ 2) < x * (1 - 15 / 10000) ∧
            x * (1 + 15 / 10000) < (1 + deviation) * roundPlaces 12 (x * y * spreads * (1 + j) ^ 2) := by
      intro j hj hpos
      rw [sq] at hpos ⊢
      rw [sub_eq_add_neg (1 : Decimal) (15 / 10000)]
      exact ⟨((slippageOK_iff _ _).1 (h j j _ hj hj hleast) hpos).1, ((slippageOK_iff _ _).1 (h j j _ hj hj hmost) hpos).2⟩
    simp only [Passes, List.mem_cons, List.not_mem_nil, or_false, forall_eq_or_imp, forall_eq]
    refine ⟨?_, hextreme _ hmost⟩
    have hlow := hextreme _ hleast
    rwa [← sub_eq_add_neg] at hlow
  · intro h j₁ j₂ j h₁ h₂ hj
    obtain ⟨hlo₁, hhi₁⟩ := h₁.bounds
    obtain ⟨hlo₂, hhi₂⟩ := h₂.bounds
    obtain ⟨hlo, hhi⟩ := hj.bounds
    simp only [Passes, List.mem_cons, List.not_mem_nil, or_false, forall_eq_or_imp, forall_eq] at h
    obtain ⟨hleast, hmost⟩ := h
    set z := x * y * spreads with hz
    have hbelow : z * (1 - 15 / 10000) ^ 2 ≤ z * ((1 + j₁) * (1 + j₂)) := by
      rw [sq]
      gcongr
    have habove : z * ((1 + j₁) * (1 + j₂)) ≤ z * (1 + 15 / 10000) ^ 2 := by
      rw [sq]
      gcongr
    have hle := roundPlaces_mono 12 hbelow
    have hge := roundPlaces_mono 12 habove
    refine (slippageOK_iff _ _).2 fun hq => ⟨?_, ?_⟩
    · calc (1 - deviation) * roundPlaces 12 (z * ((1 + j₁) * (1 + j₂)))
          ≤ (1 - deviation) * roundPlaces 12 (z * (1 + 15 / 10000) ^ 2) :=
            mul_le_mul_of_nonneg_left hge (by norm_num [deviation, maxSlippage])
        _ < x * (1 - 15 / 10000) := (hmost (hq.trans_le hge)).1
        _ ≤ x * (1 + j) := by gcongr
    · have hdev : (0 : Decimal) ≤ 1 + deviation := by norm_num [deviation, maxSlippage]
      refine (mul_le_mul_of_nonneg_left hhi hx.le).trans_lt ?_
      rcases le_or_gt (roundPlaces 12 (z * (1 - 15 / 10000) ^ 2)) 0 with hzero | hpos
      · have hq' : 0 ≤ z * ((1 + j₁) * (1 + j₂)) := by
          refine mul_nonneg hcorridor.le (mul_nonneg ?_ ?_) <;> linarith
        have hclose : z * (1 + 15 / 10000) ^ 2 ≤ 3 * (z * (1 - 15 / 10000) ^ 2) := by linarith
        have hsame := roundPlaces_le_of_pos (by positivity) hzero hq' hq (by positivity) hclose
        exact (hmost (hq.trans_le hge)).2.trans_le (mul_le_mul_of_nonneg_left hsame hdev)
      · exact (hleast hpos).2.trans_le (mul_le_mul_of_nonneg_left hle hdev)

def settlaRoute (onQuote offQuote : ProviderQuote) : Route where
  onRamp := "settla"
  offRamp := "settla"
  chain := "tron"
  stable := "USDT"
  onQuote := onQuote
  offQuote := offQuote
  gasFee := 1

def emptyRouter : Router where
  registry := ⟨[], [], fun _ => none, fun _ => none, fun _ => none, [], []⟩

def newOnRamp : OnRampProvider := ⟨fun _ => none, fun _ => none⟩

def newOffRamp : OffRampProvider := ⟨fun _ => none, fun _ => none⟩

section Refused

variable {e : RampEnv} {amount rate quoted : Decimal} {source target : Currency} {reference : String}

theorem onRamp_refuses (hsource : source ∈ supportedFiat) (htarget : target ∈ supportedStablecoins) (hamount : 0 < amount)
    (hrate : e.rate = .ok rate) (hbad : slippageOK quoted rate = false) :
    (newOnRamp.execute e amount source target reference quoted).2 = .error (.slippage quoted rate) := by
  simp [OnRampProvider.execute, OnRampProvider.byRef, newOnRamp, hsource, htarget, not_le.2 hamount, hrate, hbad]

theorem offRamp_refuses (hsource : source ∈ supportedStablecoins) (htarget : target ∈ supportedFiat) (hamount : 0 < amount)
    (hrate : e.rate = .ok rate) (hbad : slippageOK quoted rate = false) :
    (newOffRamp.execute e [] amount source target reference quoted).2 = .error (.slippage quoted rate) := by
  have hpos : 0 < quoted := by
    by_contra hzero
    simp [slippageOK, hzero] at hbad
  simp [OffRampProvider.execute, OffRampProvider.byRef, newOffRamp, hsource, htarget, not_le.2 hamount, hrate, hbad, hpos]

end Refused

/-- The rates and the two quotes of a corridor on the Settla providers. -/
structure Corridor where
  base : Currency → Option Decimal
  (estimated payout : Currency → Int64)
  (source stable dest : Currency)
  (amount stableAmount : Decimal)

/-- A rate that a route of the corridor can be quoted with, at these jitters. -/
def Corridor.Quotes (c : Corridor) (j₁ j₂ rate : Decimal) : Prop :=
  ∃ (r : Router) (req : RouteRequest) (best : Route) (rest : List Route),
    (OnRampProvider.getQuote c.estimated (getRate c.base j₁ c.source "USD") ⟨c.source, c.amount, c.stable⟩).toOption =
      some best.onQuote ∧
    (OffRampProvider.getQuote c.payout (getRate c.base j₂ "USD" c.dest) ⟨c.stable, c.stableAmount, c.dest⟩).toOption =
      some best.offQuote ∧
    rate = quotedRate (r.result req best rest)

/-- What the providers ask of a request. -/
structure Corridor.Supported (c : Corridor) : Prop where
  source : c.source ∈ supportedFiat
  stable : c.stable ∈ supportedStablecoins
  dest : c.dest ∈ supportedFiat
  amount : 0 < c.amount
  stableAmount : 0 < c.stableAmount

theorem Corridor.quotes_iff {c : Corridor} (hc : c.Supported) {a b : Decimal} (ha : getRate c.base 0 c.source "USD" = .ok a)
    (hb : getRate c.base 0 "USD" c.dest = .ok b) (j₁ j₂ rate : Decimal) :
    c.Quotes j₁ j₂ rate ↔ rate = roundPlaces 12 (a * b * spreads * ((1 + j₁) * (1 + j₂))) := by
  have hspreads : a * (1 + j₁) * ((10000 - 50) / 10000) * (b * (1 + j₂) * (1 - 30 / 10000)) =
      a * b * spreads * ((1 + j₁) * (1 + j₂)) := by
    unfold spreads
    ring
  unfold Corridor.Quotes
  rw [getRate_jitter ha, getRate_jitter hb, ← hspreads]
  constructor
  · rintro ⟨r, req, best, rest, hon, hoff, rfl⟩
    rw [← onQuote_rate hon, ← offQuote_rate hoff]
    rfl
  · rintro rfl
    refine ⟨emptyRouter, ⟨c.source, c.dest, c.amount⟩,
      settlaRoute ⟨a * (1 + j₁) * ((10000 - 50) / 10000),
        roundPlaces 16 (c.amount * (a * (1 + j₁)) * 50 / 10000), c.estimated c.source⟩
        ⟨b * (1 + j₂) * (1 - 30 / 10000), max (c.stableAmount * (30 / 10000)) (1 / 2), c.payout c.dest⟩, [], ?_, ?_, rfl⟩
    · rw [OnRampProvider.getQuote, if_neg (not_not.2 hc.source), if_neg (not_not.2 hc.stable), if_neg (not_le.2 hc.amount)]
      rfl
    · rw [OffRampProvider.getQuote, if_neg (not_not.2 hc.stable), if_neg (not_not.2 hc.dest)]
      rfl

/-- **An unmoved market passes only where the other rate is near one.** At all jitters no request is refused for
slippage, exactly if the extreme ones pass: the on-ramp looks at the rate from the dollar to the destination,
which it does not have, and the off-ramp at that from the source to the dollar. -/
theorem unmoved_passes_iff (c : Corridor) (hc : c.Supported) (a b : Decimal) (ha : getRate c.base 0 c.source "USD" = .ok a)
    (hb : getRate c.base 0 "USD" c.dest = .ok b) (hpos : 0 < a ∧ 0 < b) :
    ((∀ j₁ j₂ j rate, Jitter j₁ → Jitter j₂ → Jitter j → c.Quotes j₁ j₂ rate →
      ∀ (p : OnRampProvider) (e : RampEnv) reference q l, e.rate = getRate c.base j c.source "USD" →
        (p.execute e c.amount c.source c.stable reference rate).2 ≠ .error (.slippage q l)) ↔ Passes a b) ∧
    ((∀ j₁ j₂ j rate, Jitter j₁ → Jitter j₂ → Jitter j → c.Quotes j₁ j₂ rate →
      ∀ (p : OffRampProvider) (e : RampEnv) meanwhile reference q l, e.rate = getRate c.base j "USD" c.dest →
        (p.execute e meanwhile c.stableAmount c.stable c.dest reference rate).2 ≠ .error (.slippage q l)) ↔ Passes b a) := by
  rw [← slippageOK_all hpos.1 hpos.2, ← slippageOK_all hpos.2 hpos.1]
  have hquotes := c.quotes_iff hc ha hb
  refine ⟨⟨fun h j₁ j₂ j h₁ h₂ hj => ?_, fun h j₁ j₂ j rate h₁ h₂ hj hq p e reference q l he => ?_⟩,
    ⟨fun h j₁ j₂ j h₁ h₂ hj => ?_, fun h j₁ j₂ j rate h₁ h₂ hj hq p e meanwhile reference q l he => ?_⟩⟩
  -- a new provider gets as far as the check
  · by_contra hbad
    exact h j₁ j₂ j _ h₁ h₂ hj ((hquotes _ _ _).2 rfl) newOnRamp ⟨_, .ok (), ""⟩ "" _ _ rfl
      (onRamp_refuses hc.source hc.stable hc.amount (getRate_jitter ha j) (Bool.eq_false_iff.2 hbad))
  · rw [(hquotes _ _ _).1 hq]
    exact onRamp_not_slippage (he.trans (getRate_jitter ha j)) (h j₁ j₂ j h₁ h₂ hj)
  · by_contra hbad
    have hswap : b * a * spreads * ((1 + j₁) * (1 + j₂)) = a * b * spreads * ((1 + j₂) * (1 + j₁)) := by ring
    rw [hswap] at hbad
    exact h j₂ j₁ j _ h₂ h₁ hj ((hquotes _ _ _).2 rfl) newOffRamp ⟨_, .ok (), ""⟩ [] "" _ _ rfl
      (offRamp_refuses hc.stable hc.dest hc.stableAmount (getRate_jitter hb j) (Bool.eq_false_iff.2 hbad))
  · have hswap : a * b * spreads * ((1 + j₁) * (1 + j₂)) = b * a * spreads * ((1 + j₂) * (1 + j₁)) := by ring
    rw [(hquotes _ _ _).1 hq, hswap]
    exact offRamp_not_slippage (he.trans (getRate_jitter hb j)) (h j₂ j₁ j h₂ h₁ hj)

def dollars : Corridor := ⟨newFXOracle, fun _ => 6, fun _ => 20, "USD", "USDT", "USD", 100, 99⟩

theorem dollars_pass : Passes 1 1 ∧ ∀ j₁ j₂ j rate, Jitter j₁ → Jitter j₂ → Jitter j → dollars.Quotes j₁ j₂ rate →
    ∀ (p : OnRampProvider) (e : RampEnv) reference q l, e.rate = getRate newFXOracle j "USD" "USD" →
      (p.execute e 100 "USD" "USDT" reference rate).2 ≠ .error (.slippage q l) :=
  ⟨by decide +kernel, (unmoved_passes_iff dollars ⟨by decide, by decide, by decide, by decide +kernel, by decide +kernel⟩ 1 1
    (by decide +kernel) (by decide +kernel) (by decide +kernel)).1.2 (by decide +kernel)⟩

/-- **The default rates.** A hundred pounds to naira are refused by the on-ramp, and would be by the off-ramp. -/
theorem naira_refused : ∃ onQuote offQuote,
    (OnRampProvider.getQuote (fun _ => 6) (getRate newFXOracle 0 "GBP" "USD") ⟨"GBP", 100, "USDT"⟩).toOption = some onQuote ∧
    (OffRampProvider.getQuote (fun _ => 5) (getRate newFXOracle 0 "USD" "NGN") ⟨"USDT", 100, "NGN"⟩).toOption = some offQuote ∧
    let rate := quotedRate (emptyRouter.result ⟨"GBP", "NGN", 100⟩ (settlaRoute onQuote offQuote) [])
    (newOnRamp.execute ⟨getRate newFXOracle 0 "GBP" "USD", .ok (), "1"⟩ 100 "GBP" "USDT" "ref" rate).2 =
      .error (.slippage rate 1.2645) ∧
    (newOffRamp.execute ⟨getRate newFXOracle 0 "USD" "NGN", .ok (), "2"⟩ [] 100 "USDT" "NGN" "ref" rate).2 =
      .error (.slippage rate (roundPlaces 16 (1 / roundPlaces 16 (1 / 1755.20)))) :=
  ⟨⟨1.2645 * 0.995, 0.63225, 6⟩, ⟨roundPlaces 16 (1 / roundPlaces 16 (1 / 1755.20)) * 0.997, 1 / 2, 5⟩, by decide +kernel⟩

end Settla.Rail
