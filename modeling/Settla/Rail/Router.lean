import Settla.Domain.Fees
import Settla.Domain.Transfer
import Settla.Lib.Keyed

/-!
# The router

Candidates are all combinations of an on-ramp, a chain and an off-ramp that can serve a request. The one
with the highest score is the route, and the next two are kept as alternatives. Quotes are fetched
concurrently, so they come in any order, and `sort.Slice` may leave equal scores in any order.
-/

namespace Settla

open Lib Lib.Keyed

namespace Router

/-! ## Providers -/

structure ProviderQuote where
  (rate fee : Decimal)
  estimatedSeconds : Int64
  deriving DecidableEq

structure CurrencyPair where
  (source target : Currency)

structure QuoteRequest where
  sourceCurrency : Currency
  sourceAmount : Decimal
  destCurrency : Currency

/-- `OnRampProvider` and `OffRampProvider`, as far as the router calls them. -/
structure RampProvider where
  id : String
  supportedPairs : List CurrencyPair
  getQuote : QuoteRequest → Option ProviderQuote

/-- `BlockchainClient`, as far as the router calls it: the fee of a transaction with a token and an amount. -/
structure BlockchainClient where
  estimateGas : Currency → Decimal → Option Decimal

structure ProviderRegistry where
  (listOnRampIDs listOffRampIDs : List String)
  (getOnRamp getOffRamp : String → Option RampProvider)
  getBlockchain : CryptoChain → Option BlockchainClient
  listBlockchainChains : List CryptoChain
  stablecoinsFromProviders : List Currency

end Router

open Router in
/-- `Router`; the scorers and the explorer are optional. -/
structure Router where
  registry : ProviderRegistry
  liquidityScorer : Option (String → Currency → Decimal → Decimal) := none
  reliabilityScorer : Option (String → Decimal) := none
  explorerUrlProvider : Option (CryptoChain → String → String) := none

namespace Router

structure RouteRequest where
  (sourceCurrency targetCurrency : Currency)
  amount : Decimal

/-! ## Scores -/

structure ScoreBreakdown where
  (cost speed liquidity reliability : Decimal)
  deriving DecidableEq

/-- `Route`: a candidate. The providers are given by their IDs. -/
structure Route where
  (onRamp offRamp : String)
  chain : CryptoChain
  stable : Currency
  score : Decimal := 0
  scoreBreakdown : ScoreBreakdown := ⟨0, 0, 0, 0⟩
  (onQuote offQuote : ProviderQuote)
  gasFee : Decimal
  deriving DecidableEq

variable (c : Route)

def Route.totalFee : Decimal := c.onQuote.fee + c.gasFee + c.offQuote.fee

def Route.totalSeconds : Int64 := c.onQuote.estimatedSeconds + c.offQuote.estimatedSeconds

variable (amount : Decimal)

def Route.stableAmount : Decimal := roundPlaces 8 (amount * c.onQuote.rate - c.onQuote.fee)

def Route.Feasible : Prop := 0 < c.stableAmount amount

instance (c : Route) (amount : Decimal) : Decidable (c.Feasible amount) := inferInstanceAs (Decidable (0 < _))

def notNegative (s : Decimal) : Decimal := if s < 0 then 0 else s

def clampScore (s : Decimal) : Decimal := if s < 0 then 0 else if 1 < s then 1 else s

/-- One less the share of the fee in the amount. Division keeps sixteen places. -/
def costScore (c : Route) : Decimal :=
  if 0 < amount then notNegative (1 - roundPlaces 16 (c.totalFee / amount)) else 1

def speedScore : Decimal := notNegative (1 - roundPlaces 16 ((c.totalSeconds.toInt : ℚ) / 3600))

def liquidityScore (r : Router) (amount : Decimal) (c : Route) : Decimal :=
  match r.liquidityScorer with
  | none => 1
  | some scorer => clampScore (scorer c.onRamp c.stable amount)

def reliabilityScore (r : Router) (c : Route) : Decimal :=
  match r.reliabilityScorer with
  | none => 1
  | some scorer => clampScore (scorer c.onRamp)

def scoreRoute (r : Router) (c : Route) (amount : Decimal) : Decimal × ScoreBreakdown :=
  let breakdown : ScoreBreakdown :=
    ⟨costScore amount c, speedScore c, r.liquidityScore amount c, r.reliabilityScore c⟩
  (breakdown.cost * (4 / 10) + breakdown.speed * (3 / 10) + breakdown.liquidity * (2 / 10) +
    breakdown.reliability * (1 / 10), breakdown)

/-! ## Candidates -/

structure OnRampQuote where
  onRamp : RampProvider
  stable : Currency
  quote : ProviderQuote

structure QuotedPair where
  (onRamp offRamp : RampProvider)
  stable : Currency
  (onQuote offQuote : ProviderQuote)

/-- What a call of `Route` meets: the rate limiters, the order in which quotes come back, and how candidates
with one score are sorted. -/
structure RouteEnv where
  (allowOnRamp allowOffRamp : String → Bool)
  onQuotes : Reading OnRampQuote
  pairs : Reading QuotedPair
  sort : Sorting Route fun a b => b.score < a.score

variable (r : Router) (env : RouteEnv) (req : RouteRequest)

/-- `onRampsByStable`: a provider is listed once for every pair. -/
def onRampsByStable (stable : Currency) : List RampProvider :=
  (r.registry.listOnRampIDs.filterMap fun id => (r.registry.getOnRamp id).filter fun _ => env.allowOnRamp id).flatMap
    fun p => (p.supportedPairs.filter fun pair => pair.source = req.sourceCurrency ∧ pair.target = stable).map fun _ => p

def offRampsByStable (stable : Currency) : List RampProvider :=
  (r.registry.listOffRampIDs.filterMap fun id => (r.registry.getOffRamp id).filter fun _ => env.allowOffRamp id).flatMap
    fun p => (p.supportedPairs.filter fun pair => pair.target = req.targetCurrency ∧ pair.source = stable).map fun _ => p

def gasFee (chain : CryptoChain) (stable : Currency) : Option Decimal :=
  if stable ∈ r.registry.stablecoinsFromProviders then
    (r.registry.getBlockchain chain).bind fun bc => bc.estimateGas stable req.amount
  else none

/-- `fetchOnRampQuotes`; a provider that does not answer is skipped. -/
def fetchOnRampQuotes : List OnRampQuote :=
  env.onQuotes.read <| r.registry.stablecoinsFromProviders.flatMap fun stable =>
    (onRampsByStable r env req stable).filterMap fun onRamp =>
      (onRamp.getQuote ⟨req.sourceCurrency, req.amount, stable⟩).map fun quote => ⟨onRamp, stable, quote⟩

/-- `fetchOffRampQuotes`; the amount is not rounded here. -/
def fetchOffRampQuotes (onQuotes : List OnRampQuote) : List QuotedPair :=
  env.pairs.read <| onQuotes.flatMap fun oq =>
    let stableAmount := req.amount * oq.quote.rate - oq.quote.fee
    (offRampsByStable r env req oq.stable).filterMap fun offRamp =>
      (offRamp.getQuote ⟨oq.stable, stableAmount, req.targetCurrency⟩).map fun quote =>
        ⟨oq.onRamp, offRamp, oq.stable, oq.quote, quote⟩

def candidate (p : QuotedPair) (chain : CryptoChain) (fee : Decimal) : Route :=
  let route : Route :=
    { onRamp := p.onRamp.id, offRamp := p.offRamp.id, chain := chain, stable := p.stable, onQuote := p.onQuote,
      offQuote := p.offQuote, gasFee := fee }
  let (score, breakdown) := r.scoreRoute route req.amount
  { route with score := score, scoreBreakdown := breakdown }

def buildCandidates : List Route :=
  (fetchOffRampQuotes r env req (fetchOnRampQuotes r env req)).flatMap fun p =>
    r.registry.listBlockchainChains.filterMap fun chain => (gasFee r req chain p.stable).map (candidate r req p chain)

/-! ## Route -/

/-- `RouteAlternative` with its score, which the engine does not read. -/
structure ScoredAlternative extends RouteAlternative where
  score : Decimal
  scoreBreakdown : ScoreBreakdown
  deriving DecidableEq

structure RouteResult where
  (providerID offRampProvider : String)
  blockchainChain : CryptoChain
  corridor : String
  fee : Money
  (rate stableAmount : Decimal)
  explorerURL : String
  estimatedSeconds : Int64
  score : Decimal
  scoreBreakdown : ScoreBreakdown
  alternatives : List ScoredAlternative
  deriving DecidableEq

inductive RouteErr
  /-- "no stablecoins available from registered providers" -/
  | noStablecoins
  /-- "no routes available for ...→..." -/
  | noRoutes (source target : Currency)
  /-- "amount too small: stable amount would be ... after fees" -/
  | amountTooSmall (stableAmount : Decimal)
  deriving DecidableEq

def corridorString (source stable dest : Currency) : String := source ++ "→" ++ stable ++ "→" ++ dest

def Route.alternative (alt : Route) : ScoredAlternative where
  onRampProvider := alt.onRamp
  offRampProvider := alt.offRamp
  chain := alt.chain
  stableCoin := alt.stable
  fee := ⟨alt.totalFee, "USD"⟩
  rate := alt.onQuote.rate * alt.offQuote.rate
  stableAmount := alt.stableAmount amount
  score := alt.score
  scoreBreakdown := alt.scoreBreakdown

/-- The loop over the remaining candidates, until so many alternatives are found. -/
def fallbacks (amount : Decimal) : ℕ → List Route → List Route
  | 0, _ => []
  | _ + 1, [] => []
  | n + 1, alt :: rest =>
    if alt.Feasible amount then alt :: fallbacks amount n rest else fallbacks amount (n + 1) rest

def result (best : Route) (rest : List Route) : RouteResult where
  providerID := best.onRamp
  offRampProvider := best.offRamp
  blockchainChain := best.chain
  corridor := corridorString req.sourceCurrency best.stable req.targetCurrency
  fee := ⟨best.totalFee, "USD"⟩
  rate := best.onQuote.rate * best.offQuote.rate
  stableAmount := best.stableAmount req.amount
  explorerURL := (r.explorerUrlProvider.map fun url => url best.chain "").getD ""
  estimatedSeconds := best.totalSeconds
  score := best.score
  scoreBreakdown := best.scoreBreakdown
  alternatives := (fallbacks req.amount 2 rest).map (Route.alternative req.amount)

/-- `Route` after `buildCandidates`, on the sorted candidates. Only the first is tested. -/
def choose : List Route → Except RouteErr RouteResult
  | [] => .error (.noRoutes req.sourceCurrency req.targetCurrency)
  | best :: rest =>
    if best.Feasible req.amount then .ok (r.result req best rest)
    else .error (.amountTooSmall (best.stableAmount req.amount))

def route : Except RouteErr RouteResult :=
  if r.registry.stablecoinsFromProviders = [] then .error .noStablecoins
  else r.choose req (env.sort.read (buildCandidates r env req))

/-! ## Quotes -/

/-- `findSubstring`, on characters: in UTF-8 a text can occur in another only from one character to another. -/
def findSubstring (sub : List Char) : List Char → Bool
  | [] => sub.isPrefixOf []
  | c :: s => sub.isPrefixOf (c :: s) || findSubstring sub s

def containsCurrency (corridor : String) (c : Currency) : Bool := findSubstring c.toList corridor.toList

/-- The stablecoin that `GetQuote` finds in a corridor. -/
def parseStable (corridor : String) : Currency :=
  if corridor = "" then "USDT"
  else ((["USDT", "USDC"].find? (containsCurrency corridor ·))).getD "USDT"

def quoteExpiry (estimatedSeconds : Int64) : Time :=
  if estimatedSeconds ≤ 0 then 5 * minute
  else
    let d : Time := (estimatedSeconds * 2 * 1000000000).toInt
    if d < 2 * minute then 2 * minute else if 30 * minute < d then 30 * minute else d

inductive QuoteErr
  /-- "loading tenant ... for quote" -/
  | loadingTenant
  /-- "routing for quote" -/
  | routing (e : RouteErr)
  /-- "fee calculation for quote" -/
  | feeCalculation
  /-- "amount too small: dest amount ... after fees (...) is not positive" -/
  | amountTooSmall (destAmount onRampFee offRampFee networkFee : Decimal)
  deriving DecidableEq

/-- `CoreRouterAdapter`; of a tenant it reads the fee schedule. -/
structure Adapter where
  router : Router
  getTenant : UUID → Option FeeSchedule

/-- What a call of `GetQuote` meets: the routing, the ID it draws and the clock. -/
structure QuoteEnv extends RouteEnv where
  newID : UUID
  now : Time

/-- The amount at the destination: the first formula, or the fallback where it is not positive. The rate is that
of both legs. -/
def destAmount (sourceAmount stableAmount offRampFee totalFee rate : Decimal) : Decimal :=
  let first := (stableAmount - offRampFee) * rate
  if 0 < first then first else (sourceAmount - totalFee) * rate

def Adapter.getQuote (a : Adapter) (env : QuoteEnv) (tenantID : UUID) (req : QuoteRequest) : Except QuoteErr Quote :=
  match a.getTenant tenantID with
  | none => .error .loadingTenant
  | some schedule =>
    match a.router.route env.toRouteEnv ⟨req.sourceCurrency, req.destCurrency, req.sourceAmount⟩ with
    | .error e => .error (.routing e)
    | .ok result =>
      match schedule.calculateFee req.sourceAmount .onRamp, schedule.calculateFee result.stableAmount .offRamp with
      | some onRampFee, some offRampFee =>
        let networkFee := result.fee.amount
        let totalFee := onRampFee + offRampFee + networkFee
        let dest := destAmount req.sourceAmount result.stableAmount offRampFee totalFee result.rate
        if 0 < dest then
          .ok {
            id := env.newID
            tenantID := tenantID
            sourceCurrency := req.sourceCurrency
            sourceAmount := req.sourceAmount
            destCurrency := req.destCurrency
            destAmount := dest
            stableAmount := result.stableAmount
            fxRate := result.rate
            fees := ⟨onRampFee, networkFee, offRampFee, totalFee⟩
            route :=
              { chain := result.blockchainChain
                stableCoin := parseStable result.corridor
                onRampProvider := result.providerID
                offRampProvider := result.offRampProvider
                alternativeRoutes := result.alternatives.map (·.toRouteAlternative) }
            expiresAt := env.now + quoteExpiry result.estimatedSeconds }
        else .error (.amountTooSmall dest onRampFee offRampFee networkFee)
      | _, _ => .error .feeCalculation

end Router

end Settla
