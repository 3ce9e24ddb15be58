import Settla.Rail.Provider

/-!
# The payout of the off-ramp
-/

namespace Settla.Rail

structure OffRampRequest where
  amount : Decimal
  (fromCurrency toCurrency : Currency)
  recipient : Recipient
  (reference sourceTxHash : String)
  quotedRate : Decimal

structure PayoutEnv where
  /-- the client of a chain, by what its polls of the transaction answer: a status, or an RPC error -/
  registry : Option (CryptoChain → Option (List (Option String)))
  /-- new UUIDs -/
  (simID refID : String)
  /-- `waitForFiatPayout` saw the payout completed -/
  paid : Bool

structure FiatTransaction where
  amount : Decimal
  (currency reference : String)
  deriving DecidableEq

/-- The goroutine runs: the request is accepted, and its reference new. -/
def OffRampProvider.Starts (p : OffRampProvider) (e : RampEnv) (meanwhile : List OffRampProgress)
    (req : OffRampRequest) : Prop :=
  p.byRef req.reference = none ∧ (p.execute e meanwhile req.amount req.fromCurrency req.toCurrency req.reference
    req.quotedRate).2.isOk

/-- The polls until the time is up. -/
def sawConfirmed : List (Option String) → Bool
  | [] => false
  | poll :: polls =>
    if poll ∈ [some "confirmed", some "CONFIRMED", some "SUCCESS"] then true
    else if poll ∈ [some "failed", some "FAILED", some "REVERT"] then false
    else sawConfirmed polls

def PayoutEnv.verifyCryptoReceipt (v : PayoutEnv) (sourceTxHash : String) (chain : CryptoChain) : String :=
  match v.registry.bind (· chain) with
  | some polls =>
    if sourceTxHash ≠ "" ∧ sawConfirmed polls then sourceTxHash else "sim-offramp-" ++ v.simID
  | none => "sim-offramp-" ++ v.simID

def OffRampRequest.buildPayoutRef (req : OffRampRequest) (refID : String) : String :=
  if req.reference ≠ "" then req.reference
  else if req.recipient.accountNumber ≠ "" then req.recipient.name ++ "/" ++ req.recipient.accountNumber
  else "offramp-" ++ refID

/-- None: "amount must be positive, got %s". -/
def simulatePayout (amount : Decimal) (currency recipient : String) : Option FiatTransaction :=
  if amount ≤ 0 then none else some ⟨amount, currency, recipient⟩

/-- The steps of the record, and the payout. Only a record that is over is cleaned up, so its hash is there. -/
def runOffRamp (v : PayoutEnv) (req : OffRampRequest) : List OffRampProgress × Option FiatTransaction :=
  let txHash := v.verifyCryptoReceipt req.sourceTxHash (preferredChainForToken req.fromCurrency)
  let fiatTx := simulatePayout req.amount req.toCurrency (req.buildPayoutRef v.refID)
  ([.receiving, .verified txHash, .received, .paying,
    if fiatTx.isSome && v.paid then .completed else .failed], fiatTx)

end Settla.Rail
