import Mathlib.Data.List.Sort
import Settla.Rail.Router

/-!
# The best route

`Route` takes the candidate with the highest score. Whether it can be used at all is tested afterwards,
so one that pays nothing out makes the request fail.
-/

namespace Settla.Router

open Lib Lib.Keyed List

variable (r : Router) (env : RouteEnv) (req : RouteRequest)

/-! ## What is chosen -/

variable {c x y : Route}

theorem fallbacks_eq (amount : Decimal) (n : ℕ) (l : List Route) :
    fallbacks amount n l = (l.filter (·.Feasible amount)).take n := by
  induction l generalizing n with
  | nil => cases n <;> rfl
  | cons alt rest ih =>
    cases n with
    | zero => rfl
    | succ n =>
      unfold fallbacks
      by_cases h : alt.Feasible amount
      · rw [if_pos h, ih, filter_cons_of_pos (by simpa using h), take_succ_cons]
      · rw [if_neg h, ih, filter_cons_of_neg (by simpa using h)]

theorem buildCandidates_nil (h : r.registry.stablecoinsFromProviders = []) : buildCandidates r env req = [] := by
  have hon : fetchOnRampQuotes r env req = [] := by
    unfold fetchOnRampQuotes
    rw [h]
    exact (env.onQuotes.perm _).eq_nil
  have hpairs : fetchOffRampQuotes r env req [] = [] := (env.pairs.perm _).eq_nil
  unfold buildCandidates
  rw [hon, hpairs]
  rfl

/-- The outcome is a candidate that can be used, with the highest score of these; so are its
alternatives, in descending order. -/
def RoutesBest (candidates : List Route) (outcome : Except RouteErr RouteResult) : Prop :=
  (∃ c ∈ candidates, c.Feasible req.amount) →
    ∃ best alts,
      outcome = .ok { r.result req best [] with alternatives := alts.map (Route.alternative req.amount) } ∧
      (best :: alts).Subperm candidates ∧ best.Feasible req.amount ∧
      (∀ c ∈ candidates, c.Feasible req.amount → c.score ≤ best.score) ∧
      (∀ alt ∈ alts, alt.Feasible req.amount ∧ alt.score ≤ best.score) ∧
      alts.Pairwise fun a b => b.score ≤ a.score

variable {r env req}

theorem head_highest {best : Route} {rest candidates : List Route} (hperm : (best :: rest).Perm candidates)
    (hsorted : (best :: rest).Pairwise fun a b => ¬ a.score < b.score) : ∀ c ∈ candidates, c.score ≤ best.score := by
  intro c hc
  rcases mem_cons.1 (hperm.mem_iff.2 hc) with rfl | hrest
  · exact le_rfl
  · exact not_lt.1 ((pairwise_cons.1 hsorted).1 c hrest)

theorem choose_best {best : Route} {rest candidates : List Route} (hperm : (best :: rest).Perm candidates)
    (hsorted : (best :: rest).Pairwise fun a b => ¬ a.score < b.score) (hbest : best.Feasible req.amount) :
    RoutesBest r req candidates (r.choose req (best :: rest)) := by
  intro _
  have hhighest := head_highest hperm hsorted
  have halts : List.Sublist (fallbacks req.amount 2 rest) rest := by
    rw [fallbacks_eq]
    exact (take_sublist _ _).trans filter_sublist
  refine ⟨best, fallbacks req.amount 2 rest, ?_, ?_, hbest, fun c hc _ => hhighest c hc, fun alt halt => ⟨?_, ?_⟩, ?_⟩
  · exact if_pos hbest
  · exact (halts.cons_cons best).subperm.trans hperm.subperm
  · rw [fallbacks_eq] at halt
    exact of_decide_eq_true (mem_filter.1 (mem_of_mem_take halt)).2
  · exact hhighest alt (hperm.mem_iff.1 (mem_cons_of_mem _ (halts.subset halt)))
  · exact ((pairwise_cons.1 hsorted).2.sublist halts).imp not_lt.1

theorem route_eq (hsome : r.registry.stablecoinsFromProviders ≠ []) :
    r.route env req = r.choose req (env.sort.read (buildCandidates r env req)) := if_neg hsome

variable (r env req)

/-- **The best route** is chosen exactly if no candidate that cannot be used has the highest score
of all. -/
theorem best_feasible_iff :
    (∀ sort, RoutesBest r req (buildCandidates r env req) (r.route { env with sort := sort } req)) ↔
      ((∃ c ∈ buildCandidates r env req, c.Feasible req.amount) →
        ∀ c ∈ buildCandidates r env req, (∀ d ∈ buildCandidates r env req, d.score ≤ c.score) → c.Feasible req.amount) := by
  have hsome : (∃ c ∈ buildCandidates r env req, c.Feasible req.amount) → r.registry.stablecoinsFromProviders ≠ [] := by
    rintro ⟨c, hc, -⟩ hnil
    rw [buildCandidates_nil r env req hnil] at hc
    cases hc
  constructor
  · intro hbest hfeasible c hc hhighest
    by_contra hnot
    -- a sort that puts this candidate first
    have hperm : (c :: env.sort.read ((buildCandidates r env req).erase c)).Perm (buildCandidates r env req) :=
      ((env.sort.perm _).cons c).trans (perm_cons_erase hc).symm
    have hsorted : (c :: env.sort.read ((buildCandidates r env req).erase c)).Pairwise fun a b => ¬ a.score < b.score := by
      refine pairwise_cons.2 ⟨fun d hd => not_lt.2 (hhighest d ?_), env.sort.sorted _⟩
      exact mem_of_mem_erase ((env.sort.perm _).mem_iff.1 hd)
    obtain ⟨sort, hsort⟩ := env.sort.exists_read hperm hsorted
    obtain ⟨best, alts, houtcome, -⟩ := hbest sort hfeasible
    rw [route_eq (hsome hfeasible)] at houtcome
    have hread : sort.read (buildCandidates r { env with sort := sort } req) = _ := hsort
    have herror : r.choose req (c :: env.sort.read ((buildCandidates r env req).erase c)) = .error _ := if_neg hnot
    rw [hread, herror] at houtcome
    cases houtcome
  · intro hcond sort hfeasible
    rw [route_eq (hsome hfeasible)]
    show ∃ best alts, r.choose req (sort.read (buildCandidates r env req)) = _ ∧ _
    have hperm := sort.perm (buildCandidates r env req)
    have hsorted := sort.sorted (buildCandidates r env req)
    generalize sort.read (buildCandidates r env req) = sorted at hperm hsorted ⊢
    cases sorted with
    | nil =>
      obtain ⟨c, hc, -⟩ := hfeasible
      rw [← hperm.nil_eq] at hc
      cases hc
    | cons best rest =>
      have hmem : best ∈ buildCandidates r env req := hperm.mem_iff.1 mem_cons_self
      exact choose_best hperm hsorted (hcond hfeasible best hmem (head_highest hperm hsorted)) hfeasible

/-- Quotes come back in order, and equal scores stay in it. -/
def plainEnv : RouteEnv where
  allowOnRamp := fun _ => true
  allowOffRamp := fun _ => true
  onQuotes := Reading.inserted
  pairs := Reading.inserted
  sort :=
    { read := fun l => l.insertionSort fun a b => b.score ≤ a.score
      perm := fun l => l.perm_insertionSort _
      sorted := fun l => (l.pairwise_insertionSort _).imp not_lt.2 }

def sampleRamp (id : String) (source target : Currency) (quote : ProviderQuote) : RampProvider :=
  ⟨id, [⟨source, target⟩], fun _ => some quote⟩

def sampleRouter (stables : List Currency) (onRamps : List RampProvider) (offRamp : RampProvider) : Router where
  registry :=
    { listOnRampIDs := onRamps.map (·.id)
      listOffRampIDs := [offRamp.id]
      getOnRamp := fun id => onRamps.find? (·.id = id)
      getOffRamp := fun id => if id = offRamp.id then some offRamp else none
      getBlockchain := fun _ => some ⟨fun _ _ => some 1⟩
      listBlockchainChains := ["tron"]
      stablecoinsFromProviders := stables }

def samplePayout : RampProvider := sampleRamp "payout" "USDT" "NGN" ⟨1500, 1, 60⟩

def lowRateRouter : Router :=
  sampleRouter ["USDT"] [sampleRamp "low" "GBP" "USDT" ⟨1 / 1000, 1, 60⟩, sampleRamp "good" "GBP" "USDT" ⟨1, 5, 60⟩]
    samplePayout

/-- **The best score cannot be used**: there is a route for 100 pounds, but the request fails. -/
theorem unusable_first :
    (∃ c ∈ buildCandidates lowRateRouter plainEnv ⟨"GBP", "NGN", 100⟩, c.Feasible 100) ∧
      lowRateRouter.route plainEnv ⟨"GBP", "NGN", 100⟩ = .error (.amountTooSmall (-9 / 10)) ∧
      ¬ RoutesBest lowRateRouter ⟨"GBP", "NGN", 100⟩ (buildCandidates lowRateRouter plainEnv ⟨"GBP", "NGN", 100⟩)
        (lowRateRouter.route plainEnv ⟨"GBP", "NGN", 100⟩) := by
  have hfeasible : ∃ c ∈ buildCandidates lowRateRouter plainEnv ⟨"GBP", "NGN", 100⟩, c.Feasible 100 := by decide +kernel
  have hroute : lowRateRouter.route plainEnv ⟨"GBP", "NGN", 100⟩ = .error (.amountTooSmall (-9 / 10)) := by decide +kernel
  refine ⟨hfeasible, hroute, fun hbest => ?_⟩
  obtain ⟨best, alts, houtcome, -⟩ := hbest hfeasible
  rw [hroute] at houtcome
  cases houtcome

/-! ## Scores -/

/-- A candidate with fees and times that are not negative. The two times add up to a machine integer. -/
structure Route.Sound (c : Route) : Prop where
  onFee : 0 ≤ c.onQuote.fee
  gas : 0 ≤ c.gasFee
  offFee : 0 ≤ c.offQuote.fee
  onTime : 0 ≤ c.onQuote.estimatedSeconds.toInt
  offTime : 0 ≤ c.offQuote.estimatedSeconds.toInt
  time : c.onQuote.estimatedSeconds.toInt + c.offQuote.estimatedSeconds.toInt < 2 ^ 63

theorem Route.Sound.totalFee (h : c.Sound) : 0 ≤ c.totalFee :=
  add_nonneg (add_nonneg h.onFee h.gas) h.offFee

theorem Route.Sound.totalSeconds (h : c.Sound) :
    c.totalSeconds.toInt = c.onQuote.estimatedSeconds.toInt + c.offQuote.estimatedSeconds.toInt := by
  have hon := h.onTime
  have hoff := h.offTime
  have hsum := h.time
  unfold Route.totalSeconds
  rw [Int64.toInt_add]
  apply Int.bmod_eq_of_le <;> omega

theorem notNegative_nonneg (s : Decimal) : 0 ≤ notNegative s := by
  unfold notNegative
  split_ifs with h
  · exact le_rfl
  · exact not_lt.1 h

theorem notNegative_le_one {s : Decimal} (h : s ≤ 1) : notNegative s ≤ 1 := by
  unfold notNegative
  split_ifs
  · exact zero_le_one
  · exact h

theorem notNegative_mono {s s' : Decimal} (h : s ≤ s') : notNegative s ≤ notNegative s' := by
  unfold notNegative
  split_ifs with hs hs'
  · exact le_rfl
  · exact not_lt.1 hs'
  · exact absurd (h.trans_lt ‹s' < 0›) hs
  · exact h

theorem clampScore_bounds (s : Decimal) : 0 ≤ clampScore s ∧ clampScore s ≤ 1 := by
  unfold clampScore
  split_ifs with hneg hlarge
  · exact ⟨le_rfl, zero_le_one⟩
  · exact ⟨zero_le_one, le_rfl⟩
  · exact ⟨not_lt.1 hneg, not_lt.1 hlarge⟩

variable {amount : Decimal}

theorem costScore_bounds (hamount : 0 < amount) (h : c.Sound) :
    0 ≤ costScore amount c ∧ costScore amount c ≤ 1 := by
  unfold costScore
  rw [if_pos hamount]
  have hratio : 0 ≤ roundPlaces 16 (c.totalFee / amount) := roundPlaces_nonneg 16 (div_nonneg h.totalFee hamount.le)
  exact ⟨notNegative_nonneg _, notNegative_le_one (by linarith)⟩

theorem costScore_mono (hamount : 0 < amount) (h : y.totalFee ≤ x.totalFee) :
    costScore amount x ≤ costScore amount y := by
  unfold costScore
  rw [if_pos hamount, if_pos hamount]
  apply notNegative_mono
  have := roundPlaces_mono 16 (div_le_div_of_nonneg_right h hamount.le)
  linarith

theorem speedScore_bounds (h : c.Sound) : 0 ≤ speedScore c ∧ speedScore c ≤ 1 := by
  have htime : (0 : ℚ) ≤ c.totalSeconds.toInt := by
    rw [h.totalSeconds]
    exact_mod_cast add_nonneg h.onTime h.offTime
  have hratio : 0 ≤ roundPlaces 16 ((c.totalSeconds.toInt : ℚ) / 3600) := roundPlaces_nonneg 16 (by positivity)
  exact ⟨notNegative_nonneg _, notNegative_le_one (by linarith)⟩

theorem speedScore_mono (h : y.totalSeconds.toInt ≤ x.totalSeconds.toInt) : speedScore x ≤ speedScore y := by
  apply notNegative_mono
  have hcast : (y.totalSeconds.toInt : ℚ) ≤ x.totalSeconds.toInt := by exact_mod_cast h
  have := roundPlaces_mono 16 (div_le_div_of_nonneg_right hcast (by norm_num : (0 : ℚ) ≤ 3600))
  linarith

theorem liquidityScore_bounds (c : Route) : 0 ≤ r.liquidityScore amount c ∧ r.liquidityScore amount c ≤ 1 := by
  unfold Router.liquidityScore
  split
  · exact ⟨zero_le_one, le_rfl⟩
  · exact clampScore_bounds _

theorem reliabilityScore_bounds (c : Route) : 0 ≤ r.reliabilityScore c ∧ r.reliabilityScore c ≤ 1 := by
  unfold Router.reliabilityScore
  split
  · exact ⟨zero_le_one, le_rfl⟩
  · exact clampScore_bounds _

/-- **Scores are between zero and one.** -/
theorem score_bounds (hamount : 0 < amount) (h : c.Sound) :
    0 ≤ (r.scoreRoute c amount).1 ∧ (r.scoreRoute c amount).1 ≤ 1 := by
  obtain ⟨hcost, hcost'⟩ := costScore_bounds hamount h
  obtain ⟨hspeed, hspeed'⟩ := speedScore_bounds h
  obtain ⟨hliquidity, hliquidity'⟩ := @liquidityScore_bounds r amount c
  obtain ⟨hreliability, hreliability'⟩ := reliabilityScore_bounds r c
  unfold Router.scoreRoute
  dsimp only
  constructor <;> linarith

/-- `y` is nowhere worse than `x`: fee, time, liquidity and reliability. -/
structure Dominates (amount : Decimal) (y x : Route) : Prop where
  fee : y.totalFee ≤ x.totalFee
  time : y.onQuote.estimatedSeconds.toInt + y.offQuote.estimatedSeconds.toInt ≤
    x.onQuote.estimatedSeconds.toInt + x.offQuote.estimatedSeconds.toInt
  liquidity : r.liquidityScore amount x ≤ r.liquidityScore amount y
  reliability : r.reliabilityScore x ≤ r.reliabilityScore y

variable {r}

theorem Dominates.scores (hamount : 0 < amount) (hx : x.Sound) (hy : y.Sound) (h : Dominates r amount y x) :
    costScore amount x ≤ costScore amount y ∧ speedScore x ≤ speedScore y := by
  have htime := h.time
  rw [← hx.totalSeconds, ← hy.totalSeconds] at htime
  exact ⟨costScore_mono hamount h.fee, speedScore_mono htime⟩

/-- **Scores respect dominance.** -/
theorem score_mono (hamount : 0 < amount) (hx : x.Sound) (hy : y.Sound) (h : Dominates r amount y x) :
    (r.scoreRoute x amount).1 ≤ (r.scoreRoute y amount).1 := by
  obtain ⟨hcost, hspeed⟩ := h.scores hamount hx hy
  have hliquidity := h.liquidity
  have hreliability := h.reliability
  unfold Router.scoreRoute
  linarith

theorem breakdown_eq (hamount : 0 < amount) (hx : x.Sound) (hy : y.Sound) (h : Dominates r amount y x)
    (heq : (r.scoreRoute y amount).1 ≤ (r.scoreRoute x amount).1) :
    (r.scoreRoute x amount).2 = (r.scoreRoute y amount).2 := by
  obtain ⟨hcost, hspeed⟩ := h.scores hamount hx hy
  have hliquidity := h.liquidity
  have hreliability := h.reliability
  unfold Router.scoreRoute at heq ⊢
  have h₁ : costScore amount x = costScore amount y := by linarith
  have h₂ : speedScore x = speedScore y := by linarith
  have h₃ : r.liquidityScore amount x = r.liquidityScore amount y := by linarith
  have h₄ : r.reliabilityScore x = r.reliabilityScore y := by linarith
  rw [h₁, h₂, h₃, h₄]

theorem candidate_scored (h : c ∈ buildCandidates r env req) :
    c.score = (r.scoreRoute c req.amount).1 ∧ c.scoreBreakdown = (r.scoreRoute c req.amount).2 := by
  obtain ⟨p, -, hchain⟩ := mem_flatMap.1 h
  obtain ⟨chain, -, hfee⟩ := mem_filterMap.1 hchain
  obtain ⟨fee, -, rfl⟩ := Option.map_eq_some_iff.1 hfee
  exact ⟨rfl, rfl⟩

variable (r)

def Selects (x : Route) : Prop := ∃ rest, env.sort.read (buildCandidates r env req) = x :: rest ∧
  r.route env req = .ok (r.result req x rest)

/-- **Scores and dominance.** Scores are between zero and one, and a route is chosen over one that
dominates it only if the scores agree in all components. -/
theorem score_respects_dominance (hamount : 0 < req.amount) :
    (∀ c : Route, c.Sound → 0 ≤ (r.scoreRoute c req.amount).1 ∧ (r.scoreRoute c req.amount).1 ≤ 1) ∧
    (∀ x y : Route, x.Sound → y.Sound → Dominates r req.amount y x →
      (r.scoreRoute x req.amount).1 ≤ (r.scoreRoute y req.amount).1) ∧
    ∀ x y : Route, y ∈ buildCandidates r env req → x.Sound → y.Sound → Dominates r req.amount y x →
      Selects r env req x → x.scoreBreakdown = y.scoreBreakdown ∧ x.score = y.score := by
  refine ⟨fun c => score_bounds r hamount, fun x y => score_mono hamount, ?_⟩
  rintro x y hy hsx hsy hdom ⟨rest, hread, -⟩
  have hperm := env.sort.perm (buildCandidates r env req)
  have hsorted := env.sort.sorted (buildCandidates r env req)
  rw [hread] at hperm hsorted
  have hx : x ∈ buildCandidates r env req := hperm.mem_iff.1 mem_cons_self
  obtain ⟨hscore, hbreakdown⟩ := candidate_scored env req hx
  obtain ⟨hscore', hbreakdown'⟩ := candidate_scored env req hy
  have hle := head_highest hperm hsorted y hy
  have hge := score_mono hamount hsx hsy hdom
  rw [← hscore, ← hscore'] at hge
  refine ⟨?_, le_antisymm hge hle⟩
  rw [hbreakdown, hbreakdown']
  refine breakdown_eq hamount hsx hsy hdom ?_
  rwa [← hscore, ← hscore']

def hourRamp (id : String) (seconds : Int64) : RampProvider := sampleRamp id "GBP" "USDT" ⟨1, 5, seconds⟩

def hourRouter : Router := sampleRouter ["USDT"] [hourRamp "slow" 7200, hourRamp "fast" 3600] samplePayout

def hourRoute (id : String) (seconds : Int64) : Route :=
  candidate hourRouter ⟨"GBP", "NGN", 100⟩
    ⟨hourRamp id seconds, samplePayout, "USDT", ⟨1, 5, seconds⟩, ⟨1500, 1, 60⟩⟩ "tron" 1

theorem hourRoute_candidates :
    buildCandidates hourRouter plainEnv ⟨"GBP", "NGN", 100⟩ = [hourRoute "slow" 7200, hourRoute "fast" 3600] := by
  decide +kernel

theorem hourRoute_sound :
    (hourRoute "slow" 7200).Sound ∧ (hourRoute "fast" 3600).Sound ∧
      Dominates hourRouter 100 (hourRoute "fast" 3600) (hourRoute "slow" 7200) :=
  ⟨⟨by decide +kernel, by decide +kernel, by decide +kernel, by decide, by decide, by decide⟩,
    ⟨by decide +kernel, by decide +kernel, by decide +kernel, by decide, by decide, by decide⟩,
    ⟨by decide +kernel, by decide, by decide +kernel, by decide +kernel⟩⟩

theorem slow_selected : Selects hourRouter plainEnv ⟨"GBP", "NGN", 100⟩ (hourRoute "slow" 7200) :=
  ⟨[hourRoute "fast" 3600], by decide +kernel, by decide +kernel⟩

theorem slow_breakdown : (hourRoute "slow" 7200).scoreBreakdown = (hourRoute "fast" 3600).scoreBreakdown := by
  obtain ⟨hslow, hfast, hdom⟩ := hourRoute_sound
  have hmem : hourRoute "fast" 3600 ∈ buildCandidates hourRouter plainEnv ⟨"GBP", "NGN", 100⟩ := by
    exact mem_cons_of_mem _ mem_cons_self
  exact ((score_respects_dominance hourRouter plainEnv ⟨"GBP", "NGN", 100⟩ (by decide)).2.2 _ _ hmem hslow hfast hdom
    slow_selected).1

/-- **A dominated route is chosen**, since both take more than an hour; and a score leaves the
interval when the times overflow. -/
theorem dominated_selected :
    ((hourRoute "slow" 7200).Sound ∧ (hourRoute "fast" 3600).Sound ∧
      Dominates hourRouter 100 (hourRoute "fast" 3600) (hourRoute "slow" 7200)) ∧
    (hourRoute "fast" 3600).totalSeconds < (hourRoute "slow" 7200).totalSeconds ∧
    (hourRoute "fast" 3600 ∈ buildCandidates hourRouter plainEnv ⟨"GBP", "NGN", 100⟩ ∧
      (hourRoute "fast" 3600).Feasible 100) ∧
    Selects hourRouter plainEnv ⟨"GBP", "NGN", 100⟩ (hourRoute "slow" 7200) ∧
    ∃ c : Route, 0 ≤ c.onQuote.estimatedSeconds ∧ 0 ≤ c.offQuote.estimatedSeconds ∧
      1 < (hourRouter.scoreRoute c 100).1 := by
  refine ⟨hourRoute_sound, by decide, ⟨?_, by decide +kernel⟩, slow_selected, ?_⟩
  · rw [hourRoute_candidates]
    exact mem_cons_of_mem _ mem_cons_self
  · -- 2 ^ 62 seconds in each leg
    exact ⟨⟨"slow", "payout", "tron", "USDT", 0, ⟨0, 0, 0, 0⟩, ⟨1, 5, 4611686018427387904⟩,
      ⟨1500, 1, 4611686018427387904⟩, 1⟩, by decide, by decide, by decide +kernel⟩

end Settla.Router
