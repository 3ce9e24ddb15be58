import Settla.Domain.Deposit

/-!
# Bank deposit sessions

`domain/bank_deposit.go` with its state machine, the recorded credits, and the outbox entries.
A payment outside the accepted range goes through UNDERPAID or OVERPAID if mismatches are rejected.
-/

namespace Settla

inductive BankDepositSessionStatus
  | pendingPayment | paymentReceived | crediting | credited | settling | settled | held | expired
  | failed | cancelled | underpaid | overpaid
  deriving DecidableEq, Inhabited

def BankDepositSessionStatus.string : BankDepositSessionStatus → String
  | .pendingPayment => "PENDING_PAYMENT"
  | .paymentReceived => "PAYMENT_RECEIVED"
  | .crediting => "CREDITING"
  | .credited => "CREDITED"
  | .settling => "SETTLING"
  | .settled => "SETTLED"
  | .held => "HELD"
  | .expired => "EXPIRED"
  | .failed => "FAILED"
  | .cancelled => "CANCELLED"
  | .underpaid => "UNDERPAID"
  | .overpaid => "OVERPAID"

def validBankDepositTransitions : BankDepositSessionStatus → List BankDepositSessionStatus
  | .pendingPayment => [.paymentReceived, .expired, .cancelled]
  | .paymentReceived => [.crediting, .underpaid, .overpaid, .failed]
  | .crediting => [.credited, .failed]
  | .credited => [.settling, .held]
  | .settling => [.settled, .failed]
  | .underpaid => [.failed]
  | .overpaid => [.failed]
  -- late payments
  | .expired => [.paymentReceived]
  | .cancelled => [.paymentReceived]
  | .failed => []
  | .settled => []
  | .held => []

inductive VirtualAccountType
  | permanent | temporary
  deriving DecidableEq, Inhabited

inductive PaymentMismatchPolicy
  | accept | reject
  deriving DecidableEq, Inhabited

/-- The texts of a reason. That of a payment mismatch names amounts. -/
inductive FailReason
  | text (reason : String)
  /-- "payment %s — received %s, expected %s" -/
  | mismatch (kind : String) (received expected : Decimal)
  deriving DecidableEq, Inhabited

/-- `BankDepositSession`, as far as the engine reads or writes it after creation. -/
structure BankDepositSession where
  (id tenantID : UUID)
  idempotencyKey : String
  status : BankDepositSessionStatus
  version : ℕ
  (bankingPartnerID accountNumber : String)
  accountType : VirtualAccountType
  currency : Currency
  (expectedAmount minAmount maxAmount receivedAmount feeAmount netAmount : Decimal)
  mismatchPolicy : PaymentMismatchPolicy
  settlementPref : SettlementPreference
  settlementTransferID : Option UUID
  (payerName payerReference bankReference : String)
  failureReason : FailReason
  failureCode : String
  deriving DecidableEq, Inhabited

def BankDepositSession.canTransitionTo (s : BankDepositSession) (target : BankDepositSessionStatus) : Bool :=
  target ∈ validBankDepositTransitions s.status

/-- `TransitionTo`: the status and the next version, if the state machine allows it. -/
def BankDepositSession.transitionTo (s : BankDepositSession) (target : BankDepositSessionStatus) :
    Option BankDepositSession :=
  if s.canTransitionTo target then some { s with status := target, version := s.version + 1 } else none

structure IncomingBankCredit where
  amount : Decimal
  currency : Currency
  (payerName payerAccountNumber payerReference bankReference : String)

structure VirtualAccountPool where
  tenantID : UUID
  (bankingPartnerID accountNumber : String)
  currency : Currency
  accountType : VirtualAccountType
  available : Bool

structure TenantBankConfig where
  bankDepositsEnabled : Bool
  bankSupportedCurrencies : List Currency
  defaultMismatchPolicy : Option PaymentMismatchPolicy

structure BankDepositTransaction where
  (sessionID tenantID : UUID)
  (bankReference payerName payerAccountNumber : String)
  amount : Decimal
  currency : Currency

/-! ## Outbox -/

inductive BankDepositEvent
  | created | paymentReceived | crediting | credited | settling | settled | held | expired | failed
  | cancelled | underpaid | overpaid | latePayment

structure CreditBankDepositPayload where
  (sessionID tenantID : UUID)
  currency : Currency
  (grossAmount feeAmount netAmount : Decimal)
  (bankReference idempotencyKey : String)

structure SettleBankDepositPayload where
  (sessionID tenantID : UUID)
  currency : Currency
  amount : Decimal
  targetFiat : Currency

structure RefundBankDepositPayload where
  (sessionID tenantID : UUID)
  accountNumber : String
  amount : Decimal
  currency : Currency
  reason : String

/-- `RecycleVirtualAccountPayload`; the engine never sets the account ID. -/
structure RecycleVirtualAccountPayload where
  (accountNumber bankingPartnerID : String)

structure BankDepositSessionEventPayload where
  (sessionID tenantID : UUID)
  status : BankDepositSessionStatus
  currency : String := ""
  amount : Decimal := 0
  reason : FailReason := .text ""

inductive BankDepositSubject
  /-- "Bank deposit session created — awaiting %s %s" -/
  | created (amount : Decimal) (currency : Currency)
  /-- "Bank payment received — %s %s" -/
  | received (amount : Decimal) (currency : Currency)
  /-- "Bank deposit %s — received %s, expected %s %s" -/
  | mismatch (kind : String) (received expected : Decimal) (currency : Currency)
  /-- "Bank deposit credited — %s %s (net)" -/
  | credited (amount : Decimal) (currency : Currency)
  /-- "Bank deposit held — %s %s awaiting settlement preference" -/
  | held (amount : Decimal) (currency : Currency)
  /-- "Bank deposit settled — %s %s converted" -/
  | settled (amount : Decimal) (currency : Currency)
  /-- "Bank deposit session expired — no payment received within TTL" -/
  | expired
  /-- "Bank deposit session cancelled" -/
  | cancelled
  /-- "Bank deposit failed — %s" -/
  | failed (reason : FailReason)

/-- What an outbox entry of a session asks for or reports. -/
inductive BankDepositBody
  | credit (p : CreditBankDepositPayload)
  | settle (p : SettleBankDepositPayload)
  | refund (p : RefundBankDepositPayload)
  | recycleAccount (p : RecycleVirtualAccountPayload)
  | event (t : BankDepositEvent) (data : BankDepositSessionEventPayload)
  | webhookDeliver (t : BankDepositEvent) (data : BankDepositSessionEventPayload)
  | emailNotify (t : BankDepositEvent) (subject : BankDepositSubject) (data : BankDepositSessionEventPayload)

structure BankDepositEntry where
  (sessionID tenantID : UUID)
  body : BankDepositBody

end Settla
