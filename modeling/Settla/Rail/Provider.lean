import Settla.Node.ProviderTx

/-!
# The Settla on-ramp and off-ramp

Both keep their transactions in memory. `Execute` returns the transaction it has for a reference, or starts
a new one, which a goroutine takes through its statuses, written in capitals.
-/

namespace Settla.Rail

open Settla.Node Lib Function

/-- What a status says about the operation: it is over, one way or the other, or not. -/
inductive Verdict
  | finished | failed | underway
  deriving DecidableEq

/-- Why `Execute` refuses a request. The texts of other components are passed on. -/
inductive RampErr
  /-- "unsupported source currency %s" -/
  | unsupportedSource (c : Currency)
  /-- "unsupported destination currency %s" -/
  | unsupportedDestination (c : Currency)
  /-- "amount must be positive" -/
  | notPositive
  /-- "getting fx rate: %w" -/
  | rate (err : String)
  /-- "FX rate moved %s%%, exceeds %s%% slippage limit" -/
  | slippage (quoted live : Decimal)
  /-- "getting system wallet for %s: %w", "getting deposit address for chain %s: %w" -/
  | wallet (chain : CryptoChain) (err : String)
  deriving DecidableEq

def supportedFiat : List Currency := ["GBP", "NGN", "USD", "EUR", "GHS"]

def supportedStablecoins : List Currency := ["USDT", "USDC"]

def maxSlippage : Decimal := 2 / 100

/-- `SlippagePolicy.Check`: the live rate is as quoted, up to 2%. Division keeps 16 places. -/
def slippageOK (quoted live : Decimal) : Bool :=
  !decide (0 < quoted) || !decide (maxSlippage < roundPlaces 16 (|live - quoted| / quoted))

/-! ## On-ramp -/

inductive OnRampStatus
  /-- fiat collection initiated -/
  | pending | fiatCollected | cryptoSent | completed | failed
  deriving DecidableEq

def OnRampStatus.string : OnRampStatus → String
  | .pending => "PENDING"
  | .fiatCollected => "FIAT_COLLECTED"
  | .cryptoSent => "CRYPTO_SENT"
  | .completed => "COMPLETED"
  | .failed => "FAILED"

def OnRampStatus.verdict : OnRampStatus → Verdict
  | .completed => .finished
  | .failed => .failed
  | _ => .underway

structure OnRampTx where
  id : String
  status : OnRampStatus
  chainTxHash : String
  deriving DecidableEq

def OnRampTx.toProviderTx (tx : OnRampTx) : ProviderTx := ⟨tx.chainTxHash, tx.status.string, tx.chainTxHash⟩

/-- `OnRampProvider`: the maps `txs` and `txByRef`. -/
structure OnRampProvider where
  txs : String → Option OnRampTx
  txByRef : String → Option String

structure RampEnv where
  rate : Except String Decimal
  /-- the system wallet, or the deposit address -/
  wallet : Except String Unit
  /-- the new UUID -/
  txID : String

def OnRampProvider.byRef (p : OnRampProvider) (reference : String) : Option OnRampTx :=
  (p.txByRef reference).bind p.txs

def stablecoinChain (c : Currency) : CryptoChain := if c = "USDT" then "tron" else "ethereum"

def OnRampProvider.execute (p : OnRampProvider) (e : RampEnv) (amount : Decimal) (source target : Currency)
    (reference : String) (quotedRate : Decimal) : OnRampProvider × Except RampErr ProviderTx :=
  if source ∉ supportedFiat then (p, .error (.unsupportedSource source))
  else if target ∉ supportedStablecoins then (p, .error (.unsupportedDestination target))
  else if amount ≤ 0 then (p, .error .notPositive)
  else
    match p.byRef reference with
    | some tx => (p, .ok tx.toProviderTx)
    | none =>
      match e.rate with
      | .error err => (p, .error (.rate err))
      | .ok rate =>
        if !slippageOK quotedRate rate then (p, .error (.slippage quotedRate rate))
        else
          match e.wallet with
          | .error err => (p, .error (.wallet (stablecoinChain target) err))
          | .ok _ =>
            -- the fiat collection starts, for an amount that is positive
            let tx : OnRampTx := ⟨e.txID, .pending, ""⟩
            (⟨update p.txs e.txID (some tx), update p.txByRef reference (some e.txID)⟩,
              .ok tx.toProviderTx)

/-! ## Off-ramp -/

inductive OffRampStatus
  | pending | receiving | received | paying | completed | failed
  deriving DecidableEq

def OffRampStatus.string : OffRampStatus → String
  | .pending => "PENDING"
  | .receiving => "CRYPTO_RECEIVING"
  | .received => "CRYPTO_RECEIVED"
  | .paying => "PAYOUT_INITIATED"
  | .completed => "COMPLETED"
  | .failed => "FAILED"

def OffRampStatus.verdict : OffRampStatus → Verdict
  | .completed => .finished
  | .failed => .failed
  | _ => .underway

structure OffRampRecord where
  id : String
  status : OffRampStatus
  txHash : String
  deriving DecidableEq

def OffRampRecord.toProviderTx (r : OffRampRecord) : ProviderTx := ⟨r.txHash, r.status.string, r.txHash⟩

/-- `OffRampProvider`: the maps `txs` and `txByRef`. -/
structure OffRampProvider where
  txs : String → Option OffRampRecord
  txByRef : String → Option String

inductive OffRampProgress
  | receiving
  | verified (hash : String)
  | received | paying | completed | failed

def OffRampRecord.next (r : OffRampRecord) : OffRampProgress → OffRampRecord
  | .receiving => if r.status = .pending then { r with status := .receiving } else r
  | .verified hash => if r.status = .receiving then { r with txHash := hash } else r
  | .received => if r.status = .receiving then { r with status := .received } else r
  | .paying => if r.status = .received then { r with status := .paying } else r
  | .completed => if r.status = .paying then { r with status := .completed } else r
  | .failed => if r.status = .paying then { r with status := .failed } else r

variable (p : OffRampProvider)

def OffRampProvider.byRef (reference : String) : Option OffRampRecord :=
  if reference = "" then none else (p.txByRef reference).bind p.txs

def preferredChainForToken (token : Currency) : CryptoChain := if token = "USDC" then "base" else "tron"

/-- A new transaction. The goroutine is started before the answer is taken, and may have come some
way. -/
def OffRampProvider.start (e : RampEnv) (meanwhile : List OffRampProgress) (source : Currency)
    (reference : String) : OffRampProvider × Except RampErr ProviderTx :=
  match e.wallet with
  | .error err => (p, .error (.wallet (preferredChainForToken source) err))
  | .ok _ =>
    let r : OffRampRecord := meanwhile.foldl OffRampRecord.next ⟨e.txID, .pending, ""⟩
    (⟨update p.txs e.txID (some r),
        if reference = "" then p.txByRef else update p.txByRef reference (some e.txID)⟩,
      .ok r.toProviderTx)

def OffRampProvider.execute (e : RampEnv) (meanwhile : List OffRampProgress) (amount : Decimal)
    (source target : Currency) (reference : String) (quotedRate : Decimal) :
    OffRampProvider × Except RampErr ProviderTx :=
  if source ∉ supportedStablecoins then (p, .error (.unsupportedSource source))
  else if target ∉ supportedFiat then (p, .error (.unsupportedDestination target))
  else if amount ≤ 0 then (p, .error .notPositive)
  else
    match p.byRef reference with
    | some r => (p, .ok r.toProviderTx)
    | none =>
      if 0 < quotedRate then
        match e.rate with
        | .error err => (p, .error (.rate err))
        | .ok rate =>
          if !slippageOK quotedRate rate then (p, .error (.slippage quotedRate rate))
          else p.start e meanwhile source reference
      else p.start e meanwhile source reference

end Settla.Rail
