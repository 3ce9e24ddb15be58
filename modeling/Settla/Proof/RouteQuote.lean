import Settla.Proof.BestRoute

/-!
# What a quote says about its route

`GetQuote` applies a rate for both legs to an amount that has passed the first leg already; if that gives
nothing positive, it starts at the source amount again. The stablecoin is looked for in a text.
-/

namespace Settla.Router

open Lib List

variable (a : Adapter) (env : QuoteEnv) (tenantID : UUID) (req : QuoteRequest)

def QuoteRequest.routed (req : QuoteRequest) : RouteRequest :=
  ⟨req.sourceCurrency, req.destCurrency, req.sourceAmount⟩

/-- What a quote is made from: the first of the sorted candidates and the fees of the tenant. -/
structure Selected (best : Route) (onRampFee offRampFee : Decimal) : Prop where
  schedule : ∃ f, a.getTenant tenantID = some f ∧ f.calculateFee req.sourceAmount .onRamp = some onRampFee ∧
    f.calculateFee (best.stableAmount req.sourceAmount) .offRamp = some offRampFee
  first : (env.sort.read (buildCandidates a.router env.toRouteEnv req.routed)).head? = some best

/-- A quote for a route and fees, apart from the destination amount. -/
structure Quotes (best : Route) (onRampFee offRampFee : Decimal) (quote : Quote) : Prop where
  stableAmount : quote.stableAmount = best.stableAmount req.sourceAmount
  rate : quote.fxRate = best.onQuote.rate * best.offQuote.rate
  fees : quote.fees = ⟨onRampFee, best.totalFee, offRampFee, onRampFee + offRampFee + best.totalFee⟩
  chain : quote.route.chain = best.chain
  onRampProvider : quote.route.onRampProvider = best.onRamp
  offRampProvider : quote.route.offRampProvider = best.offRamp
  stableCoin : quote.route.stableCoin = parseStable (corridorString req.sourceCurrency best.stable req.destCurrency)
  destAmount : quote.destAmount = destAmount req.sourceAmount (best.stableAmount req.sourceAmount) offRampFee
    (onRampFee + offRampFee + best.totalFee) (best.onQuote.rate * best.offQuote.rate)
  positive : 0 < quote.destAmount

variable {a env tenantID req} {quote : Quote}

theorem route_ok {r : Router} {env : RouteEnv} {req : RouteRequest} {result : RouteResult} (h : r.route env req = .ok result) :
    ∃ best rest, env.sort.read (buildCandidates r env req) = best :: rest ∧ result = r.result req best rest := by
  unfold Router.route at h
  split_ifs at h
  generalize hread : env.sort.read (buildCandidates r env req) = sorted at h
  cases sorted with
  | nil => cases h
  | cons best rest =>
    unfold Router.choose at h
    dsimp only at h
    split_ifs at h
    exact ⟨best, rest, rfl, (Except.ok.inj h).symm⟩

theorem getQuote_ok (h : a.getQuote env tenantID req = .ok quote) :
    ∃ best onRampFee offRampFee, Selected a env tenantID req best onRampFee offRampFee ∧
      Quotes req best onRampFee offRampFee quote := by
  unfold Adapter.getQuote at h
  split at h
  · cases h
  rename_i f htenant
  split at h
  · cases h
  rename_i result hroute
  obtain ⟨best, rest, hread, rfl⟩ := route_ok hroute
  split at h
  · rename_i onRampFee offRampFee hon hoff
    dsimp only at h
    split_ifs at h with hpos
    cases h
    refine ⟨best, onRampFee, offRampFee, ⟨⟨f, htenant, hon, hoff⟩, ?_⟩, ⟨rfl, rfl, rfl, rfl, rfl, rfl, rfl, rfl, hpos⟩⟩
    exact congrArg List.head? hread
  · cases h

/-! ## The destination amount -/

/-- The destination amount as the off-ramp would pay it: the stable amount less the fee, at the rate `q`. -/
def PaysOut (p q source stable offRampFee total : Decimal) : Prop :=
  offRampFee < stable ∧
    if 0 < (stable - offRampFee) * (p * q) then p = 1 else (source - total) * p = stable - offRampFee

theorem destAmount_eq_iff {p q source stable offRampFee total : Decimal}
    (hpos : 0 < destAmount source stable offRampFee total (p * q)) :
    destAmount source stable offRampFee total (p * q) = (stable - offRampFee) * q ∧ offRampFee < stable ↔
      PaysOut p q source stable offRampFee total := by
  unfold destAmount at hpos ⊢
  dsimp only at hpos ⊢
  rw [and_comm]
  refine and_congr_right fun hfee => ?_
  have hleft : stable - offRampFee ≠ 0 := (sub_pos.2 hfee).ne'
  split_ifs at hpos ⊢ with hfirst
  · have hq : q ≠ 0 := right_ne_zero_of_mul (right_ne_zero_of_mul hfirst.ne')
    constructor
    · intro heq
      have hpq : p * q = 1 * q := by
        rw [one_mul]
        exact mul_left_cancel₀ hleft heq
      exact mul_right_cancel₀ hq hpq
    · rintro rfl
      rw [one_mul]
  · have hq : q ≠ 0 := right_ne_zero_of_mul (right_ne_zero_of_mul hpos.ne')
    rw [← mul_assoc]
    exact mul_left_inj' hq

/-- **The destination amount** of every quote, for the route and the fees it is made from. -/
theorem quoted_dest_iff (hquote : a.getQuote env tenantID req = .ok quote) :
    ∃ best onRampFee offRampFee, Selected a env tenantID req best onRampFee offRampFee ∧
      (quote.stableAmount = roundPlaces 8 (req.sourceAmount * best.onQuote.rate - best.onQuote.fee) ∧
        quote.destAmount = (quote.stableAmount - quote.fees.offRampFee) * best.offQuote.rate ∧
        quote.fees.offRampFee < quote.stableAmount ↔
      PaysOut best.onQuote.rate best.offQuote.rate req.sourceAmount (best.stableAmount req.sourceAmount) offRampFee
        (onRampFee + offRampFee + best.totalFee)) := by
  obtain ⟨best, onRampFee, offRampFee, hselected, hquotes⟩ := getQuote_ok hquote
  refine ⟨best, onRampFee, offRampFee, hselected, ?_⟩
  have hpos := hquotes.positive
  rw [hquotes.destAmount] at hpos ⊢
  rw [hquotes.stableAmount, hquotes.fees, ← destAmount_eq_iff hpos]
  exact and_iff_right rfl

def sampleQuoteEnv : QuoteEnv := { plainEnv with newID := 1, now := 0 }

def sampleAdapter (source stable : Currency) (rate : Decimal) (schedule : FeeSchedule) : Adapter where
  router := sampleRouter [stable] [sampleRamp "ramp" source stable ⟨rate, 5, 60⟩]
    (sampleRamp "payout" stable "NGN" ⟨1500, 1, 60⟩)
  getTenant := fun _ => some schedule

def dollarQuote : Quote :=
  ⟨1, 7, "USD", 100, "NGN", (95 - 95 / 100) * 1500, 95, 1500, ⟨0, 7, 95 / 100, 795 / 100⟩,
    ⟨"tron", "USDT", "ramp", "payout", []⟩, 4 * minute⟩

theorem dollar_quoted :
    (sampleAdapter "USD" "USDT" 1 { offRampBPS := 100 }).getQuote sampleQuoteEnv 7 ⟨"USD", 100, "NGN"⟩ = .ok dollarQuote := by
  decide +kernel

theorem dollar_selected {best : Route} {onRampFee offRampFee : Decimal}
    (h : Selected (sampleAdapter "USD" "USDT" 1 { offRampBPS := 100 }) sampleQuoteEnv 7 ⟨"USD", 100, "NGN"⟩
      best onRampFee offRampFee) :
    best.stable = "USDT" ∧ best.onQuote = ⟨1, 5, 60⟩ ∧ best.offQuote = ⟨1500, 1, 60⟩ := by
  have hfirst : (sampleQuoteEnv.sort.read (buildCandidates (sampleAdapter "USD" "USDT" 1 { offRampBPS := 100 }).router
      sampleQuoteEnv.toRouteEnv (QuoteRequest.routed ⟨"USD", 100, "NGN"⟩))).head?.map
        (fun c => (c.stable, c.onQuote, c.offQuote)) = some ("USDT", ⟨1, 5, 60⟩, ⟨1500, 1, 60⟩) := by decide +kernel
  rw [h.first] at hfirst
  simpa using hfirst

theorem dollar_paid_out :
    ∃ best onRampFee offRampFee,
      Selected (sampleAdapter "USD" "USDT" 1 { offRampBPS := 100 }) sampleQuoteEnv 7 ⟨"USD", 100, "NGN"⟩
        best onRampFee offRampFee ∧
      PaysOut best.onQuote.rate best.offQuote.rate 100 (best.stableAmount 100) offRampFee
        (onRampFee + offRampFee + best.totalFee) := by
  obtain ⟨best, onRampFee, offRampFee, hselected, hiff⟩ := quoted_dest_iff dollar_quoted
  obtain ⟨-, hon, hoff⟩ := dollar_selected hselected
  refine ⟨best, onRampFee, offRampFee, hselected, hiff.1 ?_⟩
  rw [hon, hoff]
  decide +kernel

/-- **Pounds at a rate of 1.25**: the rate is applied twice. And with a fee of 10 on 5 dollars, a
quote is still given. -/
theorem rate_twice :
    ((sampleAdapter "GBP" "USDT" (5 / 4) { offRampBPS := 100 }).getQuote sampleQuoteEnv 7 ⟨"GBP", 100, "NGN"⟩).map
        (fun quote => (quote.stableAmount, quote.fees.offRampFee, quote.destAmount)) =
      .ok (120, 6 / 5, (120 - 6 / 5) * (5 / 4) * 1500) ∧
    ((sampleAdapter "NGN" "USDT" (1 / 1000) { minFeeUSD := 10 }).getQuote sampleQuoteEnv 7 ⟨"NGN", 10000, "NGN"⟩).map
        (fun quote => (quote.stableAmount, quote.fees.offRampFee, quote.destAmount)) =
      .ok (5, 10, (10000 - 27) * (1 / 1000) * 1500) := by
  decide +kernel

/-! ## The stablecoin -/

theorem infix_append_cons_iff {α : Type*} {sub x y : List α} {sep : α} (hsep : sep ∉ sub) :
    sub <:+: x ++ sep :: y ↔ sub <:+: x ∨ sub <:+: y := by
  constructor
  · rintro ⟨s, t, heq⟩
    rcases append_eq_append_iff.1 heq with ⟨left, rfl, -⟩ | ⟨beyond, hover, hrest⟩
    · exact .inl (infix_append _ _ _)
    cases beyond with
    | nil => exact .inl ⟨s, [], by simpa using hover⟩
    | cons c beyond =>
      -- what lies over the end of `x` starts with the separator
      obtain ⟨rfl, rfl⟩ := List.cons.inj hrest
      rcases append_eq_append_iff.1 hover with ⟨left, -, rfl⟩ | ⟨left, -, hleft⟩
      · simp at hsep
      cases left with
      | nil =>
        rw [nil_append] at hleft
        exact absurd (hleft ▸ mem_cons_self) hsep
      | cons c left =>
        obtain ⟨-, rfl⟩ := List.cons.inj hleft
        exact .inr (infix_append _ _ _)
  · rintro (h | h)
    · exact infix_append_of_infix_left h
    · exact infix_append_of_infix_right (infix_cons h)

theorem findSubstring_iff (sub s : List Char) : findSubstring sub s ↔ sub <:+: s := by
  induction s with
  | nil => simp [findSubstring]
  | cons c s ih =>
    unfold findSubstring
    rw [Bool.or_eq_true, ih, isPrefixOf_iff_prefix, infix_cons_iff]

variable (source stable dest : Currency)

/-- A currency without an arrow is found in a corridor exactly if it is found in one of its three parts. -/
theorem containsCurrency_corridor {c : Currency} (harrow : '→' ∉ c.toList) :
    containsCurrency (corridorString source stable dest) c ↔
      containsCurrency source c ∨ containsCurrency stable c ∨ containsCurrency dest c := by
  have hparts : (corridorString source stable dest).toList =
      source.toList ++ '→' :: (stable.toList ++ '→' :: dest.toList) := by
    simp [corridorString]
  unfold containsCurrency
  simp only [findSubstring_iff, hparts, infix_append_cons_iff harrow]

theorem parseStable_corridor :
    parseStable (corridorString source stable dest) =
      if ¬ containsCurrency (corridorString source stable dest) "USDT" ∧
        containsCurrency (corridorString source stable dest) "USDC" then "USDC" else "USDT" := by
  have hne : corridorString source stable dest ≠ "" := by
    intro h
    have := congrArg String.toList h
    simp [corridorString] at this
  unfold parseStable
  rw [if_neg hne]
  cases hT : containsCurrency (corridorString source stable dest) "USDT" <;>
    cases hC : containsCurrency (corridorString source stable dest) "USDC" <;>
    simp [List.find?, hT, hC]

/-- **The stablecoin of the route** is in the corridor, but it is only found there if it is the first of the two
that are looked for. -/
theorem parseStable_eq_iff :
    parseStable (corridorString source stable dest) = stable ↔
      stable = "USDT" ∨ stable = "USDC" ∧ ¬ containsCurrency source "USDT" ∧ ¬ containsCurrency dest "USDT" := by
  have hT := containsCurrency_corridor source stable dest (c := "USDT") (by decide)
  have hC := containsCurrency_corridor source stable dest (c := "USDC") (by decide)
  rw [parseStable_corridor]
  simp only [hT, hC]
  by_cases hUSDT : stable = "USDT"
  · subst hUSDT
    have hself : containsCurrency "USDT" "USDT" := by decide
    simp [hself]
  by_cases hUSDC : stable = "USDC"
  · subst hUSDC
    have hself : containsCurrency "USDC" "USDC" := by decide
    have hother : ¬ containsCurrency "USDC" "USDT" := by decide
    simp [hself, hother]
  · simp only [hUSDT, hUSDC, false_and, or_false, iff_false]
    split_ifs
    · exact fun h => hUSDC h.symm
    · exact fun h => hUSDT h.symm

/-- **The stablecoin of every quote**, and the route it is made from. -/
theorem quoted_stable_iff (hquote : a.getQuote env tenantID req = .ok quote) :
    ∃ best onRampFee offRampFee, Selected a env tenantID req best onRampFee offRampFee ∧
      (quote.fxRate = best.onQuote.rate * best.offQuote.rate ∧ quote.stableAmount = best.stableAmount req.sourceAmount ∧
        quote.route.chain = best.chain ∧ quote.route.onRampProvider = best.onRamp ∧
        quote.route.offRampProvider = best.offRamp) ∧
      (quote.route.stableCoin = best.stable ↔
        best.stable = "USDT" ∨
          best.stable = "USDC" ∧ ¬ containsCurrency req.sourceCurrency "USDT" ∧
          ¬ containsCurrency req.destCurrency "USDT") := by
  obtain ⟨best, onRampFee, offRampFee, hselected, hquotes⟩ := getQuote_ok hquote
  refine ⟨best, onRampFee, offRampFee, hselected,
    ⟨hquotes.rate, hquotes.stableAmount, hquotes.chain, hquotes.onRampProvider, hquotes.offRampProvider⟩, ?_⟩
  rw [hquotes.stableCoin]
  exact parseStable_eq_iff _ _ _

theorem dollar_stable :
    ∃ best onRampFee offRampFee,
      Selected (sampleAdapter "USD" "USDT" 1 { offRampBPS := 100 }) sampleQuoteEnv 7 ⟨"USD", 100, "NGN"⟩
        best onRampFee offRampFee ∧
      dollarQuote.route.stableCoin = best.stable := by
  obtain ⟨best, onRampFee, offRampFee, hselected, -, hiff⟩ := quoted_stable_iff dollar_quoted
  exact ⟨best, onRampFee, offRampFee, hselected, hiff.2 (.inl (dollar_selected hselected).1)⟩

/-- **Another stablecoin is named**: from `USDT` over `USDC`, and over a stablecoin that is not looked for. -/
theorem stable_misnamed :
    (((sampleAdapter "USDT" "USDC" 1 {}).getQuote sampleQuoteEnv 7 ⟨"USDT", 100, "NGN"⟩).map (·.route.stableCoin) = .ok "USDT" ∧
      (buildCandidates (sampleAdapter "USDT" "USDC" 1 {}).router plainEnv ⟨"USDT", "NGN", 100⟩).map (·.stable) = ["USDC"]) ∧
    ((sampleAdapter "GBP" "PYUSD" 1 {}).getQuote sampleQuoteEnv 7 ⟨"GBP", 100, "NGN"⟩).map (·.route.stableCoin) = .ok "USDT" ∧
      (buildCandidates (sampleAdapter "GBP" "PYUSD" 1 {}).router plainEnv ⟨"GBP", "NGN", 100⟩).map (·.stable) = ["PYUSD"] := by
  decide +kernel

end Settla.Router
