import Settla.Domain.Types

/-!
# Transfers and quotes

`domain/transfer.go` with its state machine, the quote and the fee breakdown. Timestamps, failure
texts and the fee-schedule snapshot are left out.
-/

namespace Settla

inductive TransferStatus
  | created | funded | onRamping | settling | offRamping | completed | failed | refunding | refunded
  deriving DecidableEq, Repr

def TransferStatus.string : TransferStatus → String
  | .created => "CREATED"
  | .funded => "FUNDED"
  | .onRamping => "ON_RAMPING"
  | .settling => "SETTLING"
  | .offRamping => "OFF_RAMPING"
  | .completed => "COMPLETED"
  | .failed => "FAILED"
  | .refunding => "REFUNDING"
  | .refunded => "REFUNDED"

def validTransitions : TransferStatus → List TransferStatus
  | .created => [.funded, .failed]
  | .funded => [.onRamping, .refunding]
  | .onRamping => [.settling, .refunding, .failed]
  | .settling => [.offRamping, .failed]
  | .offRamping => [.completed, .failed]
  | .failed => [.refunding]
  | .refunding => [.refunded]
  | .completed => []
  | .refunded => []

structure Sender where
  id : UUID
  (name email country : String)
  deriving DecidableEq

structure Recipient where
  (name accountNumber sortCode bankName country iban : String)
  deriving DecidableEq

structure FeeBreakdown where
  (onRampFee networkFee offRampFee totalFeeUSD : Decimal)
  deriving DecidableEq

structure RouteAlternative where
  (onRampProvider offRampProvider : String)
  chain : CryptoChain
  stableCoin : Currency
  fee : Money
  (rate stableAmount : Decimal)
  deriving DecidableEq

structure RouteInfo where
  chain : CryptoChain
  stableCoin : Currency
  (onRampProvider offRampProvider : String)
  alternativeRoutes : List RouteAlternative
  deriving DecidableEq

structure Quote where
  (id tenantID : UUID)
  sourceCurrency : Currency
  sourceAmount : Decimal
  destCurrency : Currency
  (destAmount stableAmount fxRate : Decimal)
  fees : FeeBreakdown
  route : RouteInfo
  expiresAt : Time
  deriving DecidableEq

structure Transfer where
  (id tenantID : UUID)
  (externalRef idempotencyKey : String)
  status : TransferStatus
  version : ℕ
  sourceCurrency : Currency
  sourceAmount : Decimal
  destCurrency : Currency
  destAmount : Decimal
  stableCoin : Currency
  stableAmount : Decimal
  chain : CryptoChain
  fxRate : Decimal
  fees : FeeBreakdown
  (onRampProviderID offRampProviderID : String)
  sender : Sender
  recipient : Recipient
  quoteID : Option UUID
  deriving DecidableEq

def Transfer.canTransitionTo (t : Transfer) (target : TransferStatus) : Bool :=
  target ∈ validTransitions t.status

def Transfer.advance (t : Transfer) (newStatus : TransferStatus) : Transfer :=
  { t with status := newStatus, version := t.version + 1 }

/-- `advancedPastStates`: the statuses in which a late result is skipped instead of refused. -/
def isAdvancedPast (current expected : TransferStatus) : Bool :=
  match expected with
  | .onRamping => current = .settling || current = .offRamping
  | .settling => current = .offRamping
  | _ => false

end Settla
