import Settla.Domain.BankDeposit
import Settla.Domain.Outbox
import Settla.Lib.Subject

/-!
# Subjects, streams and consumers

A message is published on the subject that `SubjectForEventType` computes from its type and tenant,
stored in the stream whose subjects match, and given to the consumers whose filter matches. A worker
acts on the types for which its `handleEvent` has a case.
-/

namespace Settla.Node

open Lib

/-! ## Types -/

/-- The types of messages that are written as intents or that a worker acts on. -/
inductive MessageType
  /-- intents of the transfer engine -/
  | intent (k : IntentKind)
  /-- events of the transfer pipeline -/
  | event (t : EventType)
  | providerReverseOnRamp | positionCredit | positionDebit | emailNotify | monitorAddress
  | creditDeposit | settleDeposit | depositTxDetected | depositTxConfirmed
  | bankDepositPaymentReceived | bankDepositCredit | bankDepositSettle | bankDepositRefund
  | recycleVirtualAccount | providerRawWebhook | providerOnRampWebhook | providerOffRampWebhook
  deriving DecidableEq

def MessageType.string : MessageType → String
  | .intent k => k.string
  | .event t => t.string
  | .providerReverseOnRamp => "provider.reverse_onramp"
  | .positionCredit => "position.credit"
  | .positionDebit => "position.debit"
  | .emailNotify => "email.notify"
  | .monitorAddress => "deposit.monitor.address"
  | .creditDeposit => "deposit.credit"
  | .settleDeposit => "deposit.settle"
  | .depositTxDetected => "deposit.tx.detected"
  | .depositTxConfirmed => "deposit.tx.confirmed"
  | .bankDepositPaymentReceived => "bank_deposit.payment.received"
  | .bankDepositCredit => "bank_deposit.credit"
  | .bankDepositSettle => "bank_deposit.settle"
  | .bankDepositRefund => "bank_deposit.refund"
  | .recycleVirtualAccount => "bank_deposit.recycle_account"
  | .providerRawWebhook => "provider.inbound.raw"
  | .providerOnRampWebhook => "provider.inbound.onramp.webhook"
  | .providerOffRampWebhook => "provider.inbound.offramp.webhook"

def transferIntents : List MessageType :=
  [.intent .treasuryReserve, .intent .treasuryRelease, .intent .treasuryConsume, .intent .providerOnRamp,
    .intent .providerOffRamp, .intent .ledgerPost, .intent .ledgerReverse, .intent .blockchainSend,
    .intent .webhookDeliver]

/-- The intents of the crypto deposit engine. The first is written when a session is created. -/
def depositIntents : List MessageType :=
  [.monitorAddress, .creditDeposit, .settleDeposit, .intent .webhookDeliver, .emailNotify]

def bankDepositIntents : List MessageType :=
  [.bankDepositCredit, .bankDepositSettle, .bankDepositRefund, .recycleVirtualAccount, .intent .webhookDeliver,
    .emailNotify]

/-- The steps of the compensation plans. The engine writes the first two as intents, and only
records the others. -/
def compensationSteps : List MessageType :=
  [.intent .treasuryRelease, .intent .ledgerReverse, .providerReverseOnRamp, .positionCredit]

def workerResults : List MessageType :=
  [.event .treasuryReserved, .event .treasuryFailed, .event .providerOnRampDone, .event .providerOnRampFailed,
    .event .providerOffRampDone, .event .providerOffRampFailed, .event .blockchainConfirmed,
    .event .blockchainFailed]

def awaited : List MessageType :=
  transferIntents ++ depositIntents ++ bankDepositIntents ++ compensationSteps ++ workerResults

/-! ## Subjects -/

inductive SubjectPrefix
  | transfer | provider | ledger | treasury | blockchain | webhook | providerInbound | deposit | email | bankDeposit
  deriving DecidableEq

def SubjectPrefix.string : SubjectPrefix → String
  | .transfer => "settla.transfer"
  | .provider => "settla.provider.command"
  | .ledger => "settla.ledger"
  | .treasury => "settla.treasury"
  | .blockchain => "settla.blockchain"
  | .webhook => "settla.webhook"
  | .providerInbound => "settla.provider.inbound"
  | .deposit => "settla.deposit"
  | .email => "settla.email"
  | .bankDeposit => "settla.bank_deposit"

/-- `TenantPartition`; without partitions the division panics. -/
def tenantPartition (tenantID : UUID) (numPartitions : ℕ) : Option ℕ :=
  let n := numPartitions % 2 ^ 32
  if n = 0 then none else some (fnv32a (toBytes 16 tenantID.toNat) % n)

def partitionSubject (pre : SubjectPrefix) (partition : ℕ) (eventType : String) : String :=
  pre.string ++ ".partition." ++ toString partition ++ "." ++ eventType

/-- `TransferSubject` and the others: the subject of the tenant's partition. -/
def tenantSubject (pre : SubjectPrefix) (tenantID : UUID) (numPartitions : ℕ) (eventType : String) : Option String :=
  (tenantPartition tenantID numPartitions).map fun partition => partitionSubject pre partition eventType

def transferSubject := tenantSubject .transfer
def providerSubject := tenantSubject .provider
def ledgerSubject := tenantSubject .ledger
def treasurySubject := tenantSubject .treasury
def blockchainSubject := tenantSubject .blockchain
def webhookSubject := tenantSubject .webhook
def providerWebhookSubject := tenantSubject .providerInbound
def depositSubject := tenantSubject .deposit
def emailSubject := tenantSubject .email
def bankDepositSubject := tenantSubject .bankDeposit

variable (eventType : String)

/-- `eventPrefix`: the word before the first dot, unless it is empty. -/
def eventPrefix : String :=
  let word := eventType.toList.takeWhile (· ≠ '.')
  if word = [] then eventType else String.ofList word

def SubjectPrefix.subject : SubjectPrefix → UUID → ℕ → String → Option String
  | .transfer => transferSubject
  | .provider => providerSubject
  | .ledger => ledgerSubject
  | .treasury => treasurySubject
  | .blockchain => blockchainSubject
  | .webhook => webhookSubject
  | .providerInbound => providerWebhookSubject
  | .deposit => depositSubject
  | .email => emailSubject
  | .bankDeposit => bankDepositSubject

/-- The switch of `SubjectForEventType`: which function is called, and with which text. -/
def subjectRoute : SubjectPrefix × String :=
  match eventPrefix eventType with
  | "deposit" => (.deposit, eventType)
  | "transfer" | "settlement" | "onramp" | "offramp" | "refund" => (.transfer, eventType)
  | "provider" =>
    let inbound := "provider.inbound.".toList
    if inbound.isPrefixOf eventType.toList then
      (.providerInbound, String.ofList (eventType.toList.drop inbound.length))
    else (.provider, eventType)
  | "ledger" => (.ledger, eventType)
  | "treasury" | "position" | "liquidity" => (.treasury, eventType)
  | "blockchain" => (.blockchain, eventType)
  | "webhook" => (.webhook, eventType)
  | "email" => (.email, eventType)
  | "bank_deposit" => (.bankDeposit, eventType)
  -- unknown types go to the transfer stream
  | _ => (.transfer, eventType)

def subjectForEventType (tenantID : UUID) (numPartitions : ℕ) : Option String :=
  (subjectRoute eventType).1.subject tenantID numPartitions (subjectRoute eventType).2

/-! ## Streams and consumers -/

inductive Stream
  | transfers | providers | ledger | treasury | blockchain | webhooks | providerWebhooks | cryptoDeposits
  | emails | bankDeposits | positionEvents | dlq

def Stream.subjects : Stream → List String
  | .transfers => ["settla.transfer.partition.*.>"]
  | .providers => ["settla.provider.command.partition.*.>"]
  | .ledger => ["settla.ledger.partition.*.>"]
  | .treasury => ["settla.treasury.partition.*.>"]
  | .blockchain => ["settla.blockchain.partition.*.>"]
  | .webhooks => ["settla.webhook.partition.*.>"]
  | .providerWebhooks => ["settla.provider.inbound.partition.*.>", "settla.provider.inbound.raw"]
  | .cryptoDeposits => ["settla.deposit.partition.*.>"]
  | .emails => ["settla.email.partition.*.>"]
  | .bankDeposits => ["settla.bank_deposit.partition.*.>", "settla.inbound.bank.>"]
  | .positionEvents => ["settla.position.event.>"]
  | .dlq => ["settla.dlq.>"]

def streamPartitionFilter (pre : SubjectPrefix) (partition : ℕ) : String :=
  pre.string ++ ".partition." ++ toString partition ++ ".>"

/-- The workers that consume messages. The bank deposit worker has a second consumer. -/
inductive WorkerKind
  | transfer | ledger | provider | inboundWebhook | blockchain | webhook | deposit | email | bankDeposit
  | bankDepositInbound | treasury | dlqMonitor

/-- The types for which `handleEvent` has a case. The monitor and the consumer of bank credits
have other handlers. -/
def WorkerKind.cases : WorkerKind → List MessageType
  | .transfer =>
    [.event .transferCreated, .event .transferFunded, .event .treasuryReserved, .event .treasuryFailed,
      .event .providerOnRampDone, .event .providerOnRampFailed, .event .blockchainConfirmed, .event .blockchainFailed,
      .event .providerOffRampDone, .event .providerOffRampFailed, .event .onRampCompleted, .event .settlementCompleted,
      .event .offRampCompleted, .event .transferFailed, .event .treasuryReleased, .event .ledgerPosted,
      .event .ledgerReversed, .event .refundCompleted]
  | .ledger => [.intent .ledgerPost, .intent .ledgerReverse]
  | .provider => [.intent .providerOnRamp, .intent .providerOffRamp]
  | .inboundWebhook => [.providerRawWebhook, .providerOnRampWebhook, .providerOffRampWebhook]
  | .blockchain => [.intent .blockchainSend]
  | .webhook => [.intent .webhookDeliver]
  | .deposit => [.depositTxDetected, .depositTxConfirmed, .creditDeposit, .settleDeposit]
  | .email => [.emailNotify]
  | .bankDeposit =>
    [.bankDepositPaymentReceived, .bankDepositCredit, .bankDepositSettle, .recycleVirtualAccount, .bankDepositRefund]
  | .bankDepositInbound => []
  | .treasury =>
    [.intent .treasuryReserve, .intent .treasuryRelease, .intent .treasuryConsume, .positionCredit, .positionDebit]
  | .dlqMonitor => []

/-- A consumer of a stream, with its partition and its filter, if it has them. -/
structure Consumer where
  worker : WorkerKind
  stream : Stream
  partition : Option ℕ
  filter : Option String

def partitionConsumers (p : ℕ) : List Consumer :=
  [⟨.transfer, .transfers, some p, some (streamPartitionFilter .transfer p)⟩,
    ⟨.ledger, .ledger, some p, some (streamPartitionFilter .ledger p)⟩,
    ⟨.provider, .providers, some p, some (streamPartitionFilter .provider p)⟩,
    ⟨.inboundWebhook, .providerWebhooks, some p, some (streamPartitionFilter .providerInbound p)⟩,
    ⟨.blockchain, .blockchain, some p, some (streamPartitionFilter .blockchain p)⟩,
    ⟨.webhook, .webhooks, some p, some (streamPartitionFilter .webhook p)⟩,
    ⟨.deposit, .cryptoDeposits, some p, some (streamPartitionFilter .deposit p)⟩,
    ⟨.email, .emails, some p, some (streamPartitionFilter .email p)⟩,
    ⟨.bankDeposit, .bankDeposits, some p, some (streamPartitionFilter .bankDeposit p)⟩]

/-- All consumers that run. Those without a partition are shared by the nodes. -/
def consumers (numPartitions : ℕ) : List Consumer :=
  [⟨.treasury, .treasury, none, none⟩, ⟨.bankDepositInbound, .bankDeposits, none, some "settla.inbound.bank.>"⟩,
    ⟨.dlqMonitor, .dlq, none, none⟩] ++
  (List.range numPartitions).flatMap partitionConsumers

def Consumer.receives (subject : String) (c : Consumer) : Bool :=
  c.stream.subjects.any (subjectMatches · subject) && c.filter.all (subjectMatches · subject)

def Consumer.handles (c : Consumer) : Bool := eventType ∈ c.worker.cases.map MessageType.string

/-- A message is given to just one consumer, of its tenant's partition or of all, which has
a case for it. -/
def Reaches (tenantID : UUID) (numPartitions : ℕ) : Prop :=
  ∃ subject p c, subjectForEventType eventType tenantID numPartitions = some subject ∧
    tenantPartition tenantID numPartitions = some p ∧
    (consumers numPartitions).filter (Consumer.receives subject) = [c] ∧
    (c.partition = some p ∨ c.partition = none) ∧ c.handles eventType = true

/-! ## Redelivery -/

/-- `MaxRetries`: how often a message is delivered that no handler acknowledges. -/
def maxRetries : ℕ := 6

def backoffBases : List Time := [second, 5 * second, 30 * second, 2 * minute, 10 * minute]

def deliveryTimes (first : Time) : List Time := backoffBases.scanl (· + ·) first

end Settla.Node
