import Settla.Api.Validation
import Settla.Core.CreateTransfer
import Settla.Domain.Deposit
import Settla.Lib.Owned

/-!
# The tables behind the API

Rows whose fields matter to a handler are written out; others are an ID and a content. A query that
filters on `tenant_id` is a `select`; one that goes by a globally unique column alone is a `lookup`.
-/

namespace Settla.Api

open Settla.Core
open Lib.Owned (Layout Query)

/-! ## Rows -/

inductive TenantStatus
  | active | suspended | onboarding
  deriving DecidableEq

def TenantStatus.string : TenantStatus → String
  | .active => "ACTIVE"
  | .suspended => "SUSPENDED"
  | .onboarding => "ONBOARDING"

structure TenantRow where
  id : UUID
  slug : String
  status : TenantStatus
  kybStatus : String
  metadata : List (String × String)
  feeSchedule : FeeSchedule
  (webhookURL webhookSecret : String)
  webhookEvents : List String
  (dailyLimitUSD perTransferLimit : Decimal)
  maxPendingTransfers : ℤ
  cryptoEnabled : Bool
  supportedChains : List CryptoChain
  defaultSettlementPref : SettlementPreference
  defaultSessionTTLSecs : ℤ

def TenantRow.tenant (t : TenantRow) : Tenant where
  active := t.status = .active
  dailyLimitUSD := t.dailyLimitUSD
  perTransferLimit := t.perTransferLimit
  maxPendingTransfers := t.maxPendingTransfers

structure APIKey where
  (id tenantID : UUID)
  (keyHash keyPrefix environment name : String)
  isActive : Bool
  expiresAt : Option Time

structure SessionRow extends DepositSession where
  (idempotencyKey depositAddress : String)
  currency : Currency
  collectionFeeBPS : ℤ
  (expiresAt createdAt : Time)

structure PoolAddress where
  tenantID : UUID
  chain : CryptoChain
  address : String
  derivationIndex : ℤ
  dispensed : Bool
  deriving DecidableEq

inductive PaymentLinkStatus
  | active | expired | disabled
  deriving DecidableEq

/-- A row of `payment_links`; `amount` to `ttlSeconds` are its `SessionConfig`. -/
structure PaymentLink where
  (id tenantID : UUID)
  (shortCode description redirectURL : String)
  status : PaymentLinkStatus
  amount : Decimal
  currency : Currency
  chain : CryptoChain
  token : String
  settlementPref : Option SettlementPreference
  ttlSeconds : ℤ
  useLimit : Option ℤ
  useCount : ℤ
  expiresAt : Option Time
  createdAt : Time

/-- A ledger account is a tenant's when its code starts with the tenant's prefix. -/
structure AccountRow where
  tenantID : UUID
  code : String
  balance : Decimal
  entries : List (Time × String)

/-- The tables whose rows handlers only pass on. -/
inductive Table
  | transferEvents | outbox | positions | positionTransactions | positionEvents | ledgerAccounts
  | webhookDeliveries | webhookEventSubscriptions | bankDepositSessions | virtualAccounts
  | exportJobs | auditLog
  deriving DecidableEq

inductive Row
  | tenant (t : TenantRow)
  | apiKey (k : APIKey)
  | quote (q : Quote)
  | transfer (t : Transfer)
  | outbox (e : OutboxEntry)
  | session (s : SessionRow)
  | depositTx (t : DepositTransaction)
  | poolAddress (a : PoolAddress)
  | paymentLink (l : PaymentLink)
  | account (a : AccountRow)
  | record (table : Table) (tenantID id : UUID) (content : String)

def Row.tenantID : Row → UUID
  | .tenant t => t.id
  | .apiKey k => k.tenantID
  | .quote q => q.tenantID
  | .transfer t => t.tenantID
  | .outbox e => e.tenantID
  | .session s => s.tenantID
  | .depositTx t => t.tenantID
  | .poolAddress a => a.tenantID
  | .paymentLink l => l.tenantID
  | .account a => a.tenantID
  | .record _ tenantID _ _ => tenantID

/-- The columns that queries without a tenant go by. -/
inductive Key
  | keyHash (hash : String)
  | transferID (id : UUID)
  | sessionID (id : UUID)
  | txHash (chain hash : String)
  | shortCode (code : String)
  deriving DecidableEq

def Row.named : Key → Row → Bool
  | .keyHash hash, .apiKey k => k.keyHash = hash
  | .transferID id, .transfer t => t.id = id
  | .sessionID id, .session s => s.id = id
  | .txHash chain hash, .depositTx t => t.chain = chain && t.txHash = hash
  | .shortCode code, .paymentLink l => l.shortCode = code
  | _, _ => false

def layout : Layout Row UUID Key where
  owner := Row.tenantID
  named := Row.named

abbrev DB := List Row

/-! ## Answers -/

inductive SessionFault
  | loadingTenant | tenantSuspended | cryptoDisabled
  | chainNotSupported (chain : CryptoChain)
  | amountTooLow (amount : Decimal)
  | maxPendingSessions (n : ℤ)
  | addressPoolEmpty (chain : CryptoChain)
  | sessionNotFound (id : UUID)
  | invalidTransition (status : DepositSessionStatus)
  /-- "tx %s:%s not found" -/
  | txNotFound (chain txHash : String)
  /-- "session %s not found for tx %s:%s"; with row level security the text is "getting
  session for tx %s:%s" and does not name the session -/
  | txOfOther (session : Option UUID) (chain txHash : String)

inductive LinkFault
  | loadingTenant | tenantSuspended | cryptoDisabled
  | notFound (link : String)
  | disabled (link : UUID)
  | expired (link : UUID)
  | exhausted (link : UUID)
  | session (e : SessionFault)

/-- The refusals of a handler: a status error, or what the `map…Error` functions make of an error. -/
inductive Fault
  | status (s : Status)
  | create (e : CreateErr)
  | engine (e : EngineErr)
  | deposit (e : SessionFault)
  | link (e : LinkFault)

inductive Response
  | tenant (t : TenantRow)
  | webhookConfig (url secret : String)
  | apiKeys (ks : List APIKey)
  | newKey (k : APIKey) (rawKey : String)
  | revoked (keyHash : String)
  /-- `ValidateAPIKeyResponse`; `none` is an invalid key -/
  | validated (t : Option TenantRow)
  | quote (q : Quote)
  | routes (q : Quote)
  | transfer (t : Transfer)
  | transfers (ts : List Transfer) (nextPageToken : Option ℤ)
  | session (s : SessionRow)
  | sessions (ss : List SessionRow)
  /-- `GetDepositSessionPublicStatusResponse` -/
  | publicStatus (id : UUID) (status : DepositSessionStatus) (chain : CryptoChain) (token address : String)
      (expected received : Decimal) (expiresAt : Time)
  | paymentLink (l : PaymentLink) (url : String)
  | paymentLinks (ls : List PaymentLink)
  | redeemed (s : SessionRow) (l : PaymentLink) (url : String)
  | balance (code : String) (amount : Decimal)
  | entries (es : List (Time × String))
  | kyb (message kybStatus : String)
  /-- a message that a query of the database or another service fills -/
  | text (s : String)
  | empty

/-- What a handler does: its accesses to the database and its answer. -/
abbrev Q := Query layout (Except Fault Response)

def reply (r : Response) : Q := .ret (.ok r)

def refuse (f : Fault) : Q := .ret (.error f)

def refuseWith (code : Code) (message : String) : Q := refuse (.status ⟨code, message⟩)

def internal : Q := refuseWith .internal "internal server error"

/-! ## Reads by tenant -/

def Row.tenant? : Row → Option TenantRow
  | .tenant t => some t
  | _ => none

def Row.apiKey? : Row → Option APIKey
  | .apiKey k => some k
  | _ => none

def Row.quote? : Row → Option Quote
  | .quote q => some q
  | _ => none

def Row.transfer? : Row → Option Transfer
  | .transfer t => some t
  | _ => none

def Row.session? : Row → Option SessionRow
  | .session s => some s
  | _ => none

def Row.poolAddress? : Row → Option PoolAddress
  | .poolAddress a => some a
  | _ => none

def Row.paymentLink? : Row → Option PaymentLink
  | .paymentLink l => some l
  | _ => none

def Row.account? : Row → Option AccountRow
  | .account a => some a
  | _ => none

def getTenant (tenantID : UUID) (next : Option TenantRow → Q) : Q :=
  .select tenantID fun rs => next (rs.filterMap Row.tenant?).head?

/-- `GetTransfer`. With `uuid.Nil` for the tenant the transfer is looked up by its ID
alone. -/
def getTransfer (tenantID transferID : UUID) (next : Option Transfer → Q) : Q :=
  if tenantID = UUID.nil then .lookup (.transferID transferID) fun r => next (r.bind Row.transfer?)
  else .select tenantID fun rs => next ((rs.filterMap Row.transfer?).find? (·.id = transferID))

def getSession (tenantID sessionID : UUID) (next : Option SessionRow → Q) : Q :=
  .select tenantID fun rs => next ((rs.filterMap Row.session?).find? (·.id = sessionID))

def getPaymentLink (tenantID linkID : UUID) (next : Option PaymentLink → Q) : Q :=
  .select tenantID fun rs => next ((rs.filterMap Row.paymentLink?).find? (·.id = linkID))

def getAPIKey (tenantID keyID : UUID) (next : Option APIKey → Q) : Q :=
  .select tenantID fun rs => next ((rs.filterMap Row.apiKey?).find? (·.id = keyID))

/-! ## Updates -/

def updateTenant (f : TenantRow → TenantRow) (h : ∀ t, (f t).id = t.id) : layout.Change where
  apply
    | .tenant t => .tenant (f t)
    | r => r
  owner_apply r := by
    cases r with
    | tenant t => exact h t
    | _ => rfl
  named_apply key r := by cases r <;> cases key <;> rfl

def setWebhook (url secret : String) : layout.Change :=
  updateTenant (fun t => { t with webhookURL := url, webhookSecret := secret }) fun _ => rfl

def setWebhookEvents (events : List String) : layout.Change :=
  updateTenant (fun t => { t with webhookEvents := events }) fun _ => rfl

def setMetadata (metadata : List (String × String)) : layout.Change :=
  updateTenant (fun t => { t with metadata := metadata }) fun _ => rfl

def setKYB (status : String) : layout.Change := updateTenant (fun t => { t with kybStatus := status }) fun _ => rfl

def deactivateAPIKey (keyID : UUID) : layout.Change where
  apply
    | .apiKey k => .apiKey (if k.id = keyID then { k with isActive := false } else k)
    | r => r
  owner_apply r := by
    cases r with
    | apiKey k => by_cases h : k.id = keyID <;> simp [h, layout, Row.tenantID]
    | _ => rfl
  named_apply key r := by
    cases r with
    | apiKey k => cases key <;> by_cases h : k.id = keyID <;> simp [h, layout, Row.named]
    | _ => cases key <;> rfl

def transitionTransfer (transferID : UUID) (newStatus : TransferStatus) (expectedVersion : ℕ) : layout.Change where
  apply
    | .transfer t => .transfer (if t.id = transferID ∧ t.version = expectedVersion then t.advance newStatus else t)
    | r => r
  owner_apply r := by
    cases r with
    | transfer t =>
      by_cases h : t.id = transferID ∧ t.version = expectedVersion <;>
        simp [h, layout, Row.tenantID, Transfer.advance]
    | _ => rfl
  named_apply key r := by
    cases r with
    | transfer t =>
      cases key <;> by_cases h : t.id = transferID ∧ t.version = expectedVersion <;>
        simp [h, layout, Row.named, Transfer.advance]
    | _ => cases key <;> rfl

def updateSession (sessionID : UUID) (f : SessionRow → SessionRow)
    (h : ∀ s, (f s).id = s.id ∧ (f s).tenantID = s.tenantID) : layout.Change where
  apply
    | .session s => .session (if s.id = sessionID then f s else s)
    | r => r
  owner_apply r := by
    cases r with
    | session s => by_cases hs : s.id = sessionID <;> simp [hs, layout, Row.tenantID, h s]
    | _ => rfl
  named_apply key r := by
    cases r with
    | session s => cases key <;> by_cases hs : s.id = sessionID <;> simp [hs, layout, Row.named, h s]
    | _ => cases key <;> rfl

def updatePaymentLink (linkID : UUID) (f : PaymentLink → PaymentLink)
    (h : ∀ l, (f l).tenantID = l.tenantID ∧ (f l).shortCode = l.shortCode) : layout.Change where
  apply
    | .paymentLink l => .paymentLink (if l.id = linkID then f l else l)
    | r => r
  owner_apply r := by
    cases r with
    | paymentLink l => by_cases hl : l.id = linkID <;> simp [hl, layout, Row.tenantID, h l]
    | _ => rfl
  named_apply key r := by
    cases r with
    | paymentLink l => cases key <;> by_cases hl : l.id = linkID <;> simp [hl, layout, Row.named, h l]
    | _ => cases key <;> rfl

def dispenseAddress (a : PoolAddress) : layout.Change where
  apply
    | .poolAddress b => .poolAddress (if b = a then { b with dispensed := true } else b)
    | r => r
  owner_apply r := by
    cases r with
    | poolAddress b => by_cases hb : b = a <;> simp [hb, layout, Row.tenantID]
    | _ => rfl
  named_apply key r := by cases r <;> cases key <;> rfl

def insertAll : List Row → Q → Q
  | [], next => next
  | r :: rs, next => .insert r (insertAll rs next)

/-- Write a record of the tenant: replace the one with its ID, or add it. -/
def putRecord (tenantID : UUID) (table : Table) (id : UUID) (content : String) (next : Q) : Q :=
  .remove tenantID (fun r => match r with
    | .record table' _ id' _ => table' = table && id' = id
    | _ => false) (.insert (.record table tenantID id content) next)

def putRecords (tenantID : UUID) : List (Table × UUID × String) → Q → Q
  | [], next => next
  | (table, id, content) :: ws, next => putRecord tenantID table id content (putRecords tenantID ws next)

end Settla.Api
