import Settla.Domain.Ledger
import Settla.Domain.Transfer

/-!
# The outbox

The entries of `domain/outbox.go` that the transfer engine writes: intents, each with its payload,
and lifecycle events.
-/

namespace Settla

structure TreasuryReservePayload where
  (transferID tenantID : UUID)
  currency : Currency
  amount : Decimal
  location : String
  deriving DecidableEq

structure TreasuryReleasePayload where
  (transferID tenantID : UUID)
  currency : Currency
  amount : Decimal
  (location reason : String)
  deriving DecidableEq

structure TreasuryConsumePayload where
  (transferID tenantID : UUID)
  currency : Currency
  amount : Decimal
  location : String
  deriving DecidableEq

structure OnRampFallback where
  (providerID offRampProvider : String)
  chain : CryptoChain
  stableCoin : Currency
  fee : Money
  (rate stableAmount : Decimal)
  deriving DecidableEq

structure ProviderOnRampPayload where
  (transferID tenantID : UUID)
  providerID : String
  amount : Decimal
  (fromCurrency toCurrency : Currency)
  reference : String
  alternatives : List OnRampFallback
  quotedRate : Decimal
  deriving DecidableEq

structure OffRampFallback where
  providerID : String
  fee : Money
  rate : Decimal
  deriving DecidableEq

structure ProviderOffRampPayload where
  (transferID tenantID : UUID)
  providerID : String
  amount : Decimal
  (fromCurrency toCurrency : Currency)
  recipient : Recipient
  reference : String
  alternatives : List OffRampFallback
  quotedRate : Decimal
  sourceTxHash : String
  deriving DecidableEq

structure LedgerPostPayload where
  (transferID tenantID : UUID)
  (idempotencyKey description referenceType : String)
  lines : List Posting
  deriving DecidableEq

/-- `BlockchainSendPayload`; the engine leaves the addresses to the worker. -/
structure BlockchainSendPayload where
  (transferID tenantID : UUID)
  chain : CryptoChain
  token : String
  amount : Decimal
  memo : String
  deriving DecidableEq

/-- The lifecycle and result events the transfer pipeline exchanges. -/
inductive EventType
  | transferCreated | transferFunded | transferCompleted | transferFailed
  | onRampCompleted | settlementCompleted | offRampCompleted
  | refundInitiated | refundCompleted
  | treasuryReserved | treasuryReleased | treasuryFailed | treasuryConsumed
  | providerOnRampDone | providerOnRampFailed | providerOffRampDone | providerOffRampFailed
  | ledgerPosted | ledgerReversed
  | blockchainConfirmed | blockchainFailed
  deriving DecidableEq, Repr

def EventType.string : EventType → String
  | .transferCreated => "transfer.created"
  | .transferFunded => "transfer.funded"
  | .transferCompleted => "transfer.completed"
  | .transferFailed => "transfer.failed"
  | .onRampCompleted => "onramp.completed"
  | .settlementCompleted => "settlement.completed"
  | .offRampCompleted => "offramp.completed"
  | .refundInitiated => "refund.initiated"
  | .refundCompleted => "refund.completed"
  | .treasuryReserved => "treasury.reserved"
  | .treasuryReleased => "treasury.released"
  | .treasuryFailed => "treasury.failed"
  | .treasuryConsumed => "treasury.consumed"
  | .providerOnRampDone => "provider.onramp.completed"
  | .providerOnRampFailed => "provider.onramp.failed"
  | .providerOffRampDone => "provider.offramp.completed"
  | .providerOffRampFailed => "provider.offramp.failed"
  | .ledgerPosted => "ledger.posted"
  | .ledgerReversed => "ledger.reversed"
  | .blockchainConfirmed => "blockchain.confirmed"
  | .blockchainFailed => "blockchain.failed"

/-- The body of a webhook, as the fields its JSON text has. -/
inductive WebhookData
  | none
  | failure (reason code : String)
  | refundCompleted (transferID : UUID)
  deriving DecidableEq

structure WebhookDeliverPayload where
  (transferID tenantID : UUID)
  eventType : EventType
  data : WebhookData
  deriving DecidableEq

inductive Intent
  | treasuryReserve (p : TreasuryReservePayload)
  | treasuryRelease (p : TreasuryReleasePayload)
  | treasuryConsume (p : TreasuryConsumePayload)
  | providerOnRamp (p : ProviderOnRampPayload)
  | providerOffRamp (p : ProviderOffRampPayload)
  | ledgerPost (p : LedgerPostPayload)
  | ledgerReverse (p : LedgerPostPayload)
  | blockchainSend (p : BlockchainSendPayload)
  | webhookDeliver (p : WebhookDeliverPayload)
  deriving DecidableEq

inductive IntentKind
  | treasuryReserve | treasuryRelease | treasuryConsume | providerOnRamp | providerOffRamp
  | ledgerPost | ledgerReverse | blockchainSend | webhookDeliver
  deriving DecidableEq, Repr

def IntentKind.string : IntentKind → String
  | .treasuryReserve => "treasury.reserve"
  | .treasuryRelease => "treasury.release"
  | .treasuryConsume => "treasury.consume"
  | .providerOnRamp => "provider.onramp.execute"
  | .providerOffRamp => "provider.offramp.execute"
  | .ledgerPost => "ledger.post"
  | .ledgerReverse => "ledger.reverse"
  | .blockchainSend => "blockchain.send"
  | .webhookDeliver => "webhook.deliver"

def Intent.kind : Intent → IntentKind
  | .treasuryReserve _ => .treasuryReserve
  | .treasuryRelease _ => .treasuryRelease
  | .treasuryConsume _ => .treasuryConsume
  | .providerOnRamp _ => .providerOnRamp
  | .providerOffRamp _ => .providerOffRamp
  | .ledgerPost _ => .ledgerPost
  | .ledgerReverse _ => .ledgerReverse
  | .blockchainSend _ => .blockchainSend
  | .webhookDeliver _ => .webhookDeliver

/-- What an outbox entry asks for or reports. The payload of an event names its transfer. -/
inductive Body
  | intent (i : Intent)
  | event (t : EventType) (transferID : UUID)
  deriving DecidableEq

structure OutboxEntry where
  aggregateType : String
  (aggregateID tenantID correlationID : UUID)
  body : Body
  maxRetries : ℕ
  deriving DecidableEq

def OutboxEntry.eventType (e : OutboxEntry) : String :=
  match e.body with
  | .intent i => i.kind.string
  | .event t _ => t.string

def OutboxEntry.isIntent (e : OutboxEntry) : Bool :=
  match e.body with
  | .intent _ => true
  | .event _ _ => false

def OutboxEntry.intent (e : OutboxEntry) : Option Intent :=
  match e.body with
  | .intent i => some i
  | .event _ _ => none

def intentsOf (es : List OutboxEntry) : List Intent := es.filterMap OutboxEntry.intent

/-- `NewOutboxIntent`. The engine's intent types are all known, so it never fails. -/
def newOutboxIntent (aggregateType : String) (aggregateID tenantID : UUID) (i : Intent) : OutboxEntry :=
  ⟨aggregateType, aggregateID, tenantID, UUID.nil, .intent i, 5⟩

def newOutboxEvent (aggregateType : String) (aggregateID tenantID : UUID) (t : EventType)
    (transferID : UUID) : OutboxEntry :=
  ⟨aggregateType, aggregateID, tenantID, UUID.nil, .event t transferID, 5⟩

def setCorrelationID (entries : List OutboxEntry) (id : UUID) : List OutboxEntry :=
  entries.map fun e => { e with correlationID := id }

/-- `domain.Event` as the workers read it: the data names the transfer and may hold an
error text and a transaction hash. -/
structure Event where
  type : EventType
  (tenantID transferID : UUID)
  (error txHash : Option String)
  deriving DecidableEq

def OutboxEntry.toEvent (e : OutboxEntry) : Option Event :=
  match e.body with
  | .intent _ => none
  | .event t transferID => some ⟨t, e.tenantID, transferID, none, none⟩

def eventsOf (es : List OutboxEntry) : List Event := es.filterMap OutboxEntry.toEvent

end Settla
