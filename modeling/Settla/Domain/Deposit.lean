import Settla.Domain.Fees

/-!
# Crypto deposit sessions

`domain/deposit.go` with its state machine, the recorded transactions, and the outbox entries.
-/

namespace Settla

inductive DepositSessionStatus
  | pendingPayment | detected | confirmed | crediting | credited | settling | settled | held
  | expired | failed | cancelled
  deriving DecidableEq, Inhabited

def DepositSessionStatus.string : DepositSessionStatus → String
  | .pendingPayment => "PENDING_PAYMENT"
  | .detected => "DETECTED"
  | .confirmed => "CONFIRMED"
  | .crediting => "CREDITING"
  | .credited => "CREDITED"
  | .settling => "SETTLING"
  | .settled => "SETTLED"
  | .held => "HELD"
  | .expired => "EXPIRED"
  | .failed => "FAILED"
  | .cancelled => "CANCELLED"

def validDepositTransitions : DepositSessionStatus → List DepositSessionStatus
  | .pendingPayment => [.detected, .expired, .cancelled]
  | .detected => [.confirmed, .pendingPayment, .failed]
  | .confirmed => [.crediting, .failed]
  | .crediting => [.credited, .failed]
  | .credited => [.settling, .held]
  | .settling => [.settled, .failed]
  -- late payments
  | .expired => [.detected]
  | .cancelled => [.detected]
  | .failed => []
  | .settled => []
  | .held => []

inductive SettlementPreference
  | autoConvert | hold | threshold
  deriving DecidableEq, Inhabited

/-- `DepositSession`, as far as the engine reads or writes it after creation. -/
structure DepositSession where
  (id tenantID : UUID)
  status : DepositSessionStatus
  version : ℕ
  chain : CryptoChain
  token : String
  (expectedAmount receivedAmount feeAmount netAmount : Decimal)
  settlementPref : SettlementPreference
  settlementTransferID : Option UUID
  (failureReason failureCode : String)
  deriving DecidableEq, Inhabited

def DepositSession.canTransitionTo (s : DepositSession) (target : DepositSessionStatus) : Bool :=
  target ∈ validDepositTransitions s.status

/-- `TransitionTo`: the status and the next version, if the state machine allows it. -/
def DepositSession.transitionTo (s : DepositSession) (target : DepositSessionStatus) : Option DepositSession :=
  if s.canTransitionTo target then some { s with status := target, version := s.version + 1 } else none

/-- The amount of a transfer on a chain. It is read from an unsigned word. -/
abbrev ChainAmount := { d : Decimal // 0 ≤ d }

structure IncomingTransaction where
  chain : CryptoChain
  (txHash fromAddress toAddress tokenContract : String)
  amount : ChainAmount
  blockNumber : ℤ
  blockHash : String

structure DepositTransaction where
  (sessionID tenantID : UUID)
  chain : CryptoChain
  (txHash fromAddress toAddress tokenContract : String)
  amount : Decimal
  blockNumber : ℤ
  blockHash : String
  (confirmations requiredConfirm : ℤ)
  confirmed : Bool
  deriving DecidableEq

/-! ## Outbox -/

inductive DepositEvent
  | txDetected | txConfirmed | crediting | credited | settling | settled | held | expired | failed
  | cancelled | latePayment
  deriving DecidableEq

structure CreditDepositPayload where
  (sessionID tenantID : UUID)
  chain : CryptoChain
  token : String
  (grossAmount feeAmount netAmount : Decimal)
  (txHash idempotencyKey : String)
  deriving DecidableEq

structure SettleDepositPayload where
  (sessionID tenantID : UUID)
  chain : CryptoChain
  token : String
  amount : Decimal
  targetFiat : Currency
  deriving DecidableEq

structure DepositTxDetectedPayload where
  (sessionID tenantID : UUID)
  txHash : String
  chain : CryptoChain
  token : String
  amount : ChainAmount
  blockNumber : ℤ
  deriving DecidableEq

structure DepositTxConfirmedPayload where
  (sessionID tenantID : UUID)
  txHash : String
  chain : CryptoChain
  token : String
  amount : Decimal
  confirmations : ℤ
  deriving DecidableEq

structure DepositSessionEventPayload where
  (sessionID tenantID : UUID)
  status : DepositSessionStatus
  chain : CryptoChain := ""
  token : String := ""
  amount : Decimal := 0
  reason : String := ""
  deriving DecidableEq

inductive DepositData
  | txDetected (p : DepositTxDetectedPayload)
  | txConfirmed (p : DepositTxConfirmedPayload)
  | session (p : DepositSessionEventPayload)
  deriving DecidableEq

inductive DepositSubject
  /-- "Payment detected — %s %s on %s" -/
  | detected (amount : Decimal) (token : String) (chain : CryptoChain)
  /-- "Payment confirmed — %s %s (%d confirmations)" -/
  | confirmed (amount : Decimal) (token : String) (confirmations : ℤ)
  /-- "Deposit credited — %s %s (net)" -/
  | credited (amount : Decimal) (token : String)
  /-- "Deposit held — %s %s awaiting settlement preference" -/
  | held (amount : Decimal) (token : String)
  /-- "Deposit settled — %s %s converted to fiat" -/
  | settled (amount : Decimal) (token : String)
  /-- "Deposit session expired — no payment received within TTL" -/
  | expired
  /-- "Deposit session cancelled" -/
  | cancelled
  /-- "Deposit failed — %s" -/
  | failed (reason : String)
  deriving DecidableEq

/-- What an outbox entry of a session asks for or reports. -/
inductive DepositBody
  | credit (p : CreditDepositPayload)
  | settle (p : SettleDepositPayload)
  | event (t : DepositEvent) (data : DepositData)
  | webhookDeliver (t : DepositEvent) (data : DepositData)
  | emailNotify (t : DepositEvent) (subject : DepositSubject) (data : DepositData)
  deriving DecidableEq

structure DepositEntry where
  (sessionID tenantID : UUID)
  body : DepositBody
  deriving DecidableEq

end Settla
