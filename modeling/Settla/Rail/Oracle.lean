import Settla.Rail.Provider
import Settla.Rail.Router

/-!
# The quotes of the Settla on-ramp and off-ramp
-/

namespace Settla.Rail

open Lib Router

/-- The base rates of `NewFXOracle`, in dollars. -/
def newFXOracle (c : Currency) : Option Decimal :=
  [("USD", 1), ("GBP", 1.2645), ("EUR", 1.0835), ("NGN", roundPlaces 16 (1 / 1755.20)),
    ("GHS", roundPlaces 16 (1 / 15.80))].lookup c

/-- `GetRate` past its cache: the cross rate, times the jitter of the call. -/
def getRate (baseRates : Currency → Option Decimal) (jitter : Decimal) (source target : Currency) :
    Except String Decimal :=
  match baseRates source, baseRates target with
  | none, _ => .error ("settla-fx-oracle: unknown currency " ++ source.quote)
  | _, none => .error ("settla-fx-oracle: unknown currency " ++ target.quote)
  | some fromUSD, some toUSD => .ok (roundPlaces 16 (fromUSD / toUSD) * (1 + jitter))

/-- The spread is 50 basis points. -/
def OnRampProvider.getQuote (estimatedSeconds : Currency → Int64) (rate : Except String Decimal) (req : QuoteRequest) :
    Except RampErr ProviderQuote :=
  if req.sourceCurrency ∉ supportedFiat then .error (.unsupportedSource req.sourceCurrency)
  else if req.destCurrency ∉ supportedStablecoins then .error (.unsupportedDestination req.destCurrency)
  else if req.sourceAmount ≤ 0 then .error .notPositive
  else
    match rate with
    | .error err => .error (.rate err)
    | .ok rate =>
      .ok ⟨rate * ((10000 - 50) / 10000), roundPlaces 16 (req.sourceAmount * rate * 50 / 10000),
        estimatedSeconds req.sourceCurrency⟩

/-- The spread is 30 basis points, and the fee half a dollar or more. -/
def OffRampProvider.getQuote (estimatedPayoutSeconds : Currency → Int64) (rate : Except String Decimal)
    (req : QuoteRequest) : Except RampErr ProviderQuote :=
  if req.sourceCurrency ∉ supportedStablecoins then .error (.unsupportedSource req.sourceCurrency)
  else if req.destCurrency ∉ supportedFiat then .error (.unsupportedDestination req.destCurrency)
  else
    match rate with
    | .error err => .error (.rate err)
    | .ok rate =>
      .ok ⟨rate * (1 - 30 / 10000), max (req.sourceAmount * (30 / 10000)) (1 / 2), estimatedPayoutSeconds req.destCurrency⟩

end Settla.Rail
