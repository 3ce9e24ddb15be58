import Settla.Core.CreateTransfer
import Settla.Domain.Crypto

/-!
# Transfers at rest

`outbox_store.go` and `adapter.go` with an encryptor: what is written for a transfer when it is created
and by each transition. Names and numbers are encrypted in the row; outbox payloads are plain JSON.
A call here is a method that runs alone.
-/

namespace Settla.Core

open Crypto

/-- The columns of a transfer besides sender and recipient. -/
structure TransferColumns where
  (id tenantID : UUID)
  (externalRef idempotencyKey : String)
  status : TransferStatus
  version : ℕ
  sourceCurrency : Currency
  sourceAmount : Decimal
  destCurrency : Currency
  destAmount : Decimal
  stableCoin : Currency
  stableAmount : Decimal
  chain : CryptoChain
  fxRate : Decimal
  fees : FeeBreakdown
  (onRampProviderID offRampProviderID : String)
  quoteID : Option UUID

def transferColumns (t : Transfer) : TransferColumns where
  id := t.id
  tenantID := t.tenantID
  externalRef := t.externalRef
  idempotencyKey := t.idempotencyKey
  status := t.status
  version := t.version
  sourceCurrency := t.sourceCurrency
  sourceAmount := t.sourceAmount
  destCurrency := t.destCurrency
  destAmount := t.destAmount
  stableCoin := t.stableCoin
  stableAmount := t.stableAmount
  chain := t.chain
  fxRate := t.fxRate
  fees := t.fees
  onRampProviderID := t.onRampProviderID
  offRampProviderID := t.offRampProviderID
  quoteID := t.quoteID

def transferFromRow (row : TransferColumns) (sender : Sender) (recipient : Recipient) : Transfer where
  id := row.id
  tenantID := row.tenantID
  externalRef := row.externalRef
  idempotencyKey := row.idempotencyKey
  status := row.status
  version := row.version
  sourceCurrency := row.sourceCurrency
  sourceAmount := row.sourceAmount
  destCurrency := row.destCurrency
  destAmount := row.destAmount
  stableCoin := row.stableCoin
  stableAmount := row.stableAmount
  chain := row.chain
  fxRate := row.fxRate
  fees := row.fees
  onRampProviderID := row.onRampProviderID
  offRampProviderID := row.offRampProviderID
  sender := sender
  recipient := recipient
  quoteID := row.quoteID

/-- The columns `sender`, `recipient` and `pii_encryption_version`. Version zero is plaintext,
from before the encryption. -/
inductive PIIColumns (C : Type)
  | plain (sender : Sender) (recipient : Recipient)
  | encrypted (version : ℕ) (sender : EncryptedSender C) (recipient : EncryptedRecipient C)

structure TransferRow (C : Type) where
  columns : TransferColumns
  pii : PIIColumns C

inductive Payload
  | body (b : Body)
  | transfer (t : Transfer)
  deriving DecidableEq

structure OutboxRow where
  aggregateType : String
  (aggregateID tenantID : UUID)
  eventType : String
  payload : Payload
  isIntent : Bool
  maxRetries : ℕ
  deriving DecidableEq

structure TransferDB (C : Type) where
  transfers : UUID → Option (TransferRow C)
  outbox : List OutboxRow

def outboxRow (e : OutboxEntry) : OutboxRow :=
  ⟨e.aggregateType, e.aggregateID, e.tenantID, e.eventType, .body e.body, e.isIntent, e.maxRetries⟩

def OutboxEntry.isTransferEvent (e : OutboxEntry) : Bool := e.aggregateType = "transfer" ∧ ¬ e.isIntent

/-- The payload that was marshalled before the insert is replaced, since it has a stale ID. -/
def createdOutboxRow (t : Transfer) (e : OutboxEntry) : OutboxRow :=
  { outboxRow e with
    aggregateID := if e.aggregateID = UUID.nil then t.id else e.aggregateID
    payload := if OutboxEntry.isTransferEvent e then .transfer t else .body e.body }

/-- The entries of `CreateTransfer`, before the database has given the transfer an ID. -/
def createdEntries (t : Transfer) : List OutboxEntry :=
  setCorrelationID [newOutboxEvent "transfer" t.id t.tenantID .transferCreated t.id] t.id

inductive OutboxColumn
  | id | aggregateType | aggregateID | tenantID | eventType | payload | isIntent | published | publishedAt
  | retryCount | maxRetries | createdAt

def OutboxColumn.name : OutboxColumn → String
  | .id => "id"
  | .aggregateType => "aggregate_type"
  | .aggregateID => "aggregate_id"
  | .tenantID => "tenant_id"
  | .eventType => "event_type"
  | .payload => "payload"
  | .isIntent => "is_intent"
  | .published => "published"
  | .publishedAt => "published_at"
  | .retryCount => "retry_count"
  | .maxRetries => "max_retries"
  | .createdAt => "created_at"

/-- The ID in a column of a row, if it holds one. -/
def OutboxRow.uuid (r : OutboxRow) : OutboxColumn → Option UUID
  | .aggregateID => some r.aggregateID
  | .tenantID => some r.tenantID
  | _ => none

def Intent.transferID : Intent → UUID
  | .treasuryReserve p => p.transferID
  | .treasuryRelease p => p.transferID
  | .treasuryConsume p => p.transferID
  | .providerOnRamp p => p.transferID
  | .providerOffRamp p => p.transferID
  | .ledgerPost p => p.transferID
  | .ledgerReverse p => p.transferID
  | .blockchainSend p => p.transferID
  | .webhookDeliver p => p.transferID

def Payload.transferID : Payload → UUID
  | .body (.intent i) => Intent.transferID i
  | .body (.event _ transferID) => transferID
  | .transfer t => t.id

inductive StoreErr
  /-- "settla-store: getting current PII key version", "encrypting sender (recipient) PII",
  "settla-core: decrypting sender (recipient) PII" -/
  | pii (e : PIIErr)
  /-- "settla-store: creating transfer" -/
  | creating | notFound

section

variable {C : Type} (c : Cipher C) (km : KeyManager)

/-- The errors of the encryptor, as the store returns them. -/
def piiResult {α : Type} : Except PIIErr α → Except StoreErr α
  | .error e => .error (.pii e)
  | .ok a => .ok a

variable (db : TransferDB C)

/-- `CreateTransferWithOutbox`; the row gets the ID the database draws. -/
def TransferDB.createTransferWithOutbox (e : CreateEnv) (random : ℕ → Option Nonce) (t : Transfer)
    (entries : List OutboxEntry) : Except StoreErr (TransferDB C) := do
  let keyVer ← piiResult (km.currentKeyVersion t.tenantID)
  let encSender ← piiResult (encryptSender c km random t.tenantID t.sender)
  let encRecipient ← piiResult (encryptRecipient c km random t.tenantID t.recipient)
  match storeRow e t with
  | none => throw .creating
  | some row =>
    if (db.transfers row.id).isSome then throw .creating
    pure {
      transfers := Function.update db.transfers row.id
        (some ⟨transferColumns row, .encrypted keyVer encSender encRecipient⟩)
      -- only the ID and the version are read back into the transfer
      outbox := db.outbox ++ entries.map (createdOutboxRow { t with id := row.id, version := row.version }) }

/-- The branch of `CreateTransferWithOutbox` without an encryptor: sender and recipient are stored as
they are. -/
def TransferDB.createTransferPlain (e : CreateEnv) (t : Transfer) (entries : List OutboxEntry) :
    Except StoreErr (TransferDB C) :=
  match storeRow e t with
  | none => throw .creating
  | some row =>
    if (db.transfers row.id).isSome then throw .creating
    else pure {
      transfers := Function.update db.transfers row.id (some ⟨transferColumns row, .plain t.sender t.recipient⟩)
      outbox := db.outbox ++ entries.map (createdOutboxRow { t with id := row.id, version := row.version }) }

def transferFromRowWithDecrypt (row : TransferRow C) : Except PIIErr Transfer :=
  match row.pii with
  | .plain sender recipient => .ok (transferFromRow row.columns sender recipient)
  | .encrypted version encSender encRecipient => do
    let sender ← decryptSenderWithVersion c km row.columns.tenantID encSender version
    let recipient ← decryptRecipientWithVersion c km row.columns.tenantID encRecipient version
    pure (transferFromRow row.columns sender recipient)

/-- `GetTransfer`: without a tenant the row is looked up by its ID alone. -/
def TransferDB.getTransfer (tenantID transferID : UUID) : Except StoreErr Transfer :=
  match db.transfers transferID with
  | none => .error .notFound
  | some row =>
    if tenantID ≠ UUID.nil ∧ row.columns.tenantID ≠ tenantID then .error .notFound
    else piiResult (transferFromRowWithDecrypt c km row)

def TransferRow.advance (row : TransferRow C) (newStatus : TransferStatus) : TransferRow C :=
  { row with columns := { row.columns with status := newStatus, version := row.columns.version + 1 } }

def TransferDB.transitionWithOutbox (transferID : UUID) (newStatus : TransferStatus)
    (expectedVersion : ℕ) (entries : List OutboxEntry) : TransferDB C :=
  match db.transfers transferID with
  | none => db
  | some row =>
    if row.columns.version ≠ expectedVersion then db
    else
      { transfers := Function.update db.transfers transferID (some (row.advance newStatus))
        outbox := db.outbox ++ entries.map outboxRow }

end

/-- A call of the engine on a transfer, with the answers of the key manager. -/
structure StoredCall where
  km : KeyManager
  transferID : UUID
  inv : Invocation

def TransferDB.call {C : Type} (c : Cipher C) (db : TransferDB C) (x : StoredCall) : TransferDB C :=
  match db.getTransfer c x.km x.inv.tenantID x.transferID with
  | .error _ => db
  | .ok t =>
    match x.inv.call.plan x.inv.lookups t with
    | .refuse _ => db
    | .skip => db
    | .transition newStatus entries => db.transitionWithOutbox x.transferID newStatus t.version entries

end Settla.Core
