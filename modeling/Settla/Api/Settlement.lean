import Settla.Api.Server

/-!
# Settlement, treasury, ledger and auth services

The handlers of `server.go` and `position_service.go`. Each takes the tenant from the
`tenant_id` field of its request.
-/

namespace Settla.Api

open Settla.Core

/-! ## SettlementService -/

structure SenderMessage where
  (id name email country : String)

/-- `senderFromProto`: a sender without an ID, or no sender at all, gets the nil UUID. -/
def senderFromProto : Option SenderMessage → Except Status Sender
  | none => .ok ⟨UUID.nil, "", "", ""⟩
  | some m =>
    match uuidParse m.id with
    | some id => .ok ⟨id, m.name, m.email, m.country⟩
    | none =>
      if m.id = "" then .ok ⟨UUID.nil, m.name, m.email, m.country⟩
      else .error ⟨.invalidArgument, "invalid sender.id: "⟩

def recipientFromProto : Option Recipient → Except Status Recipient
  | none => .error ⟨.invalidArgument, "recipient is required"⟩
  | some r => .ok r

structure CreateTransferMessage where
  (tenantId externalRef idempotencyKey sourceCurrency sourceAmount destCurrency : String)
  sender : Option SenderMessage
  recipient : Option Recipient
  quoteId : String

inductive SettlementRequest
  | createQuote (tenantId sourceCurrency sourceAmount destCurrency destCountry : String)
  | getQuote (tenantId quoteId : String)
  | createTransfer (m : CreateTransferMessage)
  | getTransfer (tenantId transferId : String)
  | getTransferByExternalRef (tenantId externalRef : String)
  | listTransfers (tenantId : String) (asked : ℤ) (pageToken statusFilter searchQuery : String)
  | cancelTransfer (tenantId transferId reason : String)
  | listTransferEvents (tenantId transferId : String)
  | getRoutingOptions (tenantId fromCurrency amount toCurrency : String)

variable (srv : Server)

/-- Load the tenant and ask the router, as `Engine.GetQuote` and `GetRoutingOptions` do. -/
def quoteFor (tenantID : UUID) (req : QuoteRequest) (next : Quote → Q) : Q :=
  getTenant tenantID fun
    | none => internal
    | some tenant =>
      if tenant.status ≠ .active then refuse (.create .tenantSuspended)
      else
        match srv.engines.route tenant req with
        | none => internal
        | some q => next { q with tenantID := tenantID }

def createQuote (tenantId sourceCurrency sourceAmount destCurrency destCountry : String) : Handler := do
  let tenantID ← parseUUID tenantId "tenant_id"
  let amount ← parseDecimal srv.parsers sourceAmount "source_amount"
  validateDecimalAmount srv.parsers sourceAmount
  validateCurrencyCode sourceCurrency
  validateCurrencyCode destCurrency
  unlessEmpty destCountry (validateCountryCode destCountry)
  onTenant tenantID <| quoteFor srv tenantID ⟨sourceCurrency, amount, destCurrency, destCountry⟩ fun q =>
    .insert (.quote q) (reply (.quote q))

def getQuote (tenantId quoteId : String) : Handler := do
  let tenantID ← parseUUID tenantId "tenant_id"
  let quoteID ← parseUUID quoteId "quote_id"
  onTenant tenantID <| .select tenantID fun rs =>
    match (rs.filterMap Row.quote?).find? (·.id = quoteID) with
    | none => internal
    | some q => if q.expiresAt < srv.now then refuse (.create .quoteExpired) else reply (.quote q)

/-- The engine's environment, over the rows of the tenant it works for. -/
def createEnv (rs : List Row) : CreateEnv where
  getTenant id := ((rs.filterMap Row.tenant?).find? (·.id = id)).map TenantRow.tenant
  getTransferByIdempotencyKey id key :=
    (rs.filterMap Row.transfer?).find? fun t => t.tenantID = id && t.idempotencyKey = key
  countPendingTransfers id :=
    some ((rs.filterMap Row.transfer?).countP fun t =>
      t.tenantID = id && t.status ≠ .completed && t.status ≠ .failed && t.status ≠ .refunded)
  getQuote id quoteID := (rs.filterMap Row.quote?).find? fun q => q.tenantID = id && q.id = quoteID
  routerQuote id req :=
    ((rs.filterMap Row.tenant?).find? (·.id = id)).bind fun tenant =>
      (srv.engines.route tenant ⟨req.sourceCurrency, req.sourceAmount, req.destCurrency, req.recipient.country⟩).map
        fun q => { q with tenantID := id }
  createQuote _ := true
  hasOnRamp := srv.engines.hasOnRamp
  hasOffRamp := srv.engines.hasOffRamp
  dailyVolume _ := srv.engines.dailyVolume rs
  now := srv.now
  newID := srv.newID
  rowID := srv.rowID

/-- The quote `CreateTransfer` has stored: one from the router, if the request names none. -/
def storedQuote (e : CreateEnv) (tenantID : UUID) (req : CreateTransferRequest) : Option Quote :=
  match req.quoteID, e.getTenant tenantID with
  | none, some tenant =>
    let known := if req.idempotencyKey ≠ "" then e.getTransferByIdempotencyKey tenantID req.idempotencyKey else none
    match checkRequest tenant req, known, checkPending e tenantID tenant with
    | .ok (), none, .ok () => e.routerQuote tenantID req
    | _, _, _ => none
  | _, _ => none

def engineCreateTransfer (tenantID : UUID) (req : CreateTransferRequest) : Q :=
  .select tenantID fun rs =>
    let e := createEnv srv rs
    insertAll ((storedQuote e tenantID req).toList.map .quote) <|
      match Core.createTransfer e tenantID req with
      | .error err => refuse (.create err)
      | .ok (.existing t) => reply (.transfer t)
      | .ok (.row t entries) => insertAll (.transfer t :: entries.map .outbox) (reply (.transfer t))

def createTransfer (m : CreateTransferMessage) : Handler := do
  let tenantID ← parseUUID m.tenantId "tenant_id"
  let amount ← parseDecimal srv.parsers m.sourceAmount "source_amount"
  validateDecimalAmount srv.parsers m.sourceAmount
  validateNonEmpty "idempotency_key" m.idempotencyKey
  validateCurrencyCode m.sourceCurrency
  validateCurrencyCode m.destCurrency
  let recipient ← recipientFromProto m.recipient
  unlessEmpty recipient.country (validateCountryCode recipient.country)
  let sender ← senderFromProto m.sender
  let quoteID ← optionalUUID m.quoteId "quote_id"
  onTenant tenantID <| engineCreateTransfer srv tenantID
    { externalRef := m.externalRef, idempotencyKey := m.idempotencyKey, sourceCurrency := m.sourceCurrency,
      sourceAmount := amount, destCurrency := m.destCurrency, sender := sender, recipient := recipient,
      quoteID := quoteID }

/-- What a transfer request is about: `uuid.Nil` passes the parser, and the store then goes by
the transfer's ID alone. -/
def transferScope (tenantID transferID : UUID) : Scope :=
  if tenantID = UUID.nil then .named (.transferID transferID) else .tenant tenantID

def getTransferHandler (tenantId transferId : String) : Handler := do
  let tenantID ← parseUUID tenantId "tenant_id"
  let transferID ← parseUUID transferId "transfer_id"
  .ok (transferScope tenantID transferID, getTransfer tenantID transferID fun
    | none => internal
    | some t => reply (.transfer t))

def getTransferByExternalRef (tenantId externalRef : String) : Handler := do
  let tenantID ← parseUUID tenantId "tenant_id"
  check (externalRef ≠ "") ⟨.invalidArgument, "external_ref is required"⟩
  onTenant tenantID <| .select tenantID fun rs =>
    match (rs.filterMap Row.transfer?).find? (·.externalRef = externalRef) with
    | none => internal
    | some t => reply (.transfer t)

variable (tenantId : String)

def listTransfers (asked : ℤ) (pageToken statusFilter searchQuery : String) :
    Handler := do
  let tenantID ← parseUUID tenantId "tenant_id"
  let size := cappedPageSize asked
  let offset ← pageOffset srv.parsers pageToken
  if statusFilter ≠ "" || searchQuery ≠ "" then
    readTenant srv tenantID (.transfersFiltered statusFilter searchQuery size)
  else
    onTenant tenantID <| .select tenantID fun rs =>
      -- the database refuses a negative offset
      if offset < 0 then internal
      else
        let page := ((rs.filterMap Row.transfer?).reverse.drop offset.toNat).take size.toNat
        reply (.transfers page (if page.length = size then some (offset + size) else none))

/-- `Engine.FailTransfer`. The row is updated by its ID and version. -/
def engineFailTransfer (tenantID transferID : UUID) (reason code : String) (next : Q) : Q :=
  getTransfer tenantID transferID fun
    | none => internal
    | some t =>
      match failTransfer reason code t with
      | .refuse e => refuse (.engine e)
      | .skip => next
      | .transition newStatus entries =>
        .change t.tenantID (transitionTransfer t.id newStatus t.version) (insertAll (entries.map .outbox) next)

def cancelTransfer (tenantId transferId reason : String) : Handler := do
  let tenantID ← parseUUID tenantId "tenant_id"
  let transferID ← parseUUID transferId "transfer_id"
  let reason := if reason = "" then "cancelled by API" else reason
  .ok (transferScope tenantID transferID, engineFailTransfer tenantID transferID reason "CANCELLED" <|
    getTransfer tenantID transferID fun
      | none => internal
      | some t => reply (.transfer t))

def listTransferEvents (tenantId transferId : String) : Handler := do
  let tenantID ← parseUUID tenantId "tenant_id"
  let transferID ← parseUUID transferId "transfer_id"
  readTenant srv tenantID (.transferEvents transferID)

def getRoutingOptions (tenantId fromCurrency amount toCurrency : String) : Handler := do
  let tenantID ← parseUUID tenantId "tenant_id"
  let value ← parseDecimal srv.parsers amount "amount"
  validateDecimalAmount srv.parsers amount
  validateCurrencyCode fromCurrency
  validateCurrencyCode toCurrency
  onTenant tenantID <| quoteFor srv tenantID ⟨fromCurrency, value, toCurrency, ""⟩ fun q => reply (.routes q)

def SettlementRequest.handler : SettlementRequest → Handler
  | .createQuote tenantId sourceCurrency sourceAmount destCurrency destCountry =>
    Api.createQuote srv tenantId sourceCurrency sourceAmount destCurrency destCountry
  | .getQuote tenantId quoteId => Api.getQuote srv tenantId quoteId
  | .createTransfer m => Api.createTransfer srv m
  | .getTransfer tenantId transferId => getTransferHandler tenantId transferId
  | .getTransferByExternalRef tenantId externalRef => Api.getTransferByExternalRef tenantId externalRef
  | .listTransfers tenantId asked pageToken statusFilter searchQuery =>
    Api.listTransfers srv tenantId asked pageToken statusFilter searchQuery
  | .cancelTransfer tenantId transferId reason => Api.cancelTransfer tenantId transferId reason
  | .listTransferEvents tenantId transferId => Api.listTransferEvents srv tenantId transferId
  | .getRoutingOptions tenantId fromCurrency amount toCurrency =>
    Api.getRoutingOptions srv tenantId fromCurrency amount toCurrency

/-! ## TreasuryService -/

inductive TreasuryRequest
  | getPositions (tenantId : String)
  | getPosition (tenantId currency location : String)
  | getLiquidityReport (tenantId : String)
  | requestTopUp (tenantId currency location amount method : String)
  | requestWithdrawal (tenantId currency location amount method destination : String)
  | getPositionTransaction (tenantId transactionId : String)
  | listPositionTransactions (tenantId : String) (asked limit offset : ℤ) (pageToken : String)
  | getPositionEventHistory (tenantId currency location : String) (start finish : Option Time) (limit offset : ℤ)

def getPositions : Handler := do
  let tenantID ← parseUUID tenantId "tenant_id"
  readTenant srv tenantID .positions

def getPosition (tenantId currency location : String) : Handler := do
  let tenantID ← parseUUID tenantId "tenant_id"
  validateCurrencyCode currency
  validateNonEmpty "location" location
  readTenant srv tenantID (.position currency location)

def getLiquidityReport : Handler := do
  let tenantID ← parseUUID tenantId "tenant_id"
  readTenant srv tenantID .liquidityReport

def requestTopUp (srv : Server) (tenantId currency location amount method : String) : Handler := do
  let tenantID ← parseUUID tenantId "tenant_id"
  configured srv.positionEngine "position management not configured"
  validateDecimalAmount srv.parsers amount
  validateCurrencyCode currency
  validateNonEmpty "location" location
  let value ← parseDecimal srv.parsers amount "amount"
  writeTenant srv tenantID (.requestTopUp currency location value method)

def requestWithdrawal (srv : Server) (tenantId currency location amount method destination : String) : Handler := do
  let tenantID ← parseUUID tenantId "tenant_id"
  configured srv.positionEngine "position management not configured"
  validateDecimalAmount srv.parsers amount
  validateCurrencyCode currency
  validateNonEmpty "location" location
  validateNonEmpty "destination" destination
  let value ← parseDecimal srv.parsers amount "amount"
  writeTenant srv tenantID (.requestWithdrawal currency location value method destination)

def getPositionTransaction (tenantId transactionId : String) : Handler := do
  let tenantID ← parseUUID tenantId "tenant_id"
  configured srv.positionEngine "position management not configured"
  let txID ← parseUUID transactionId "transaction_id"
  readTenant srv tenantID (.positionTransaction txID)

def legacyPageSize (asked limit : ℤ) : ℤ := pageSize (if asked ≤ 0 then limit else asked) 100 20

def listPositionTransactions (asked limit offset : ℤ) (pageToken : String) :
    Handler := do
  let tenantID ← parseUUID tenantId "tenant_id"
  configured srv.positionEngine "position management not configured"
  let cursor ← pageCursor srv.parsers pageToken
  readTenant srv tenantID (.positionTransactions (legacyPageSize asked limit) (max offset 0) cursor)

def getPositionEventHistory (tenantId currency location : String) (start finish : Option Time)
    (limit offset : ℤ) : Handler := do
  let tenantID ← parseUUID tenantId "tenant_id"
  configured srv.positionEventStore "position event history not configured"
  validateCurrencyCode currency
  validateNonEmpty "location" location
  readTenant srv tenantID (.positionEvents currency location (start.getD (srv.now - 30 * day)) (finish.getD srv.now)
    (pageSize limit 100 50) (max offset 0))

def TreasuryRequest.handler : TreasuryRequest → Handler
  | .getPositions tenantId => Api.getPositions srv tenantId
  | .getPosition tenantId currency location => Api.getPosition srv tenantId currency location
  | .getLiquidityReport tenantId => Api.getLiquidityReport srv tenantId
  | .requestTopUp tenantId currency location amount method =>
    Api.requestTopUp srv tenantId currency location amount method
  | .requestWithdrawal tenantId currency location amount method destination =>
    Api.requestWithdrawal srv tenantId currency location amount method destination
  | .getPositionTransaction tenantId transactionId => Api.getPositionTransaction srv tenantId transactionId
  | .listPositionTransactions tenantId asked limit offset pageToken =>
    Api.listPositionTransactions srv tenantId asked limit offset pageToken
  | .getPositionEventHistory tenantId currency location start finish limit offset =>
    Api.getPositionEventHistory srv tenantId currency location start finish limit offset

/-! ## LedgerService -/

inductive LedgerRequest
  | getAccounts (tenantId : String)
  | getAccountBalance (tenantId accountCode : String)
  | getTransactions (tenantId accountCode : String) (start finish : Option Time) (asked : ℤ) (pageToken : String)

def hasPrefix (s pre : String) : Bool := pre.toList.isPrefixOf s.toList

/-- The checks of `verifyAccountOwnership` before it loads the tenant. -/
def verifyAccountCode (accountCode : String) : Except Status Unit := do
  check srv.portalStore ⟨.internal, "tenant store not available"⟩
  check (hasPrefix accountCode "tenant:") ⟨.permissionDenied,
    "account " ++ accountCode ++ " is a system account and cannot be accessed via tenant API"⟩

/-- The rest of `verifyAccountOwnership`: the code must start with the prefix of the tenant. -/
def verifyAccountOwnership (tenantID : UUID) (accountCode : String) (next : Q) : Q :=
  getTenant tenantID fun
    | none => internal
    | some tenant =>
      if hasPrefix accountCode (tenantAccountCode tenant.slug "") then next
      else refuseWith .permissionDenied
        ("account " ++ accountCode ++ " does not belong to tenant " ++ tenantID.string)

def getAccounts : Handler := do
  let tenantID ← parseUUID tenantId "tenant_id"
  if srv.accountStore then readTenant srv tenantID .accounts else .ok (.shared, reply .empty)

def getAccountBalance (tenantId accountCode : String) : Handler := do
  let tenantID ← parseUUID tenantId "tenant_id"
  validateNonEmpty "account_code" accountCode
  verifyAccountCode srv accountCode
  onTenant tenantID <| verifyAccountOwnership tenantID accountCode <| .select tenantID fun rs =>
    match (rs.filterMap Row.account?).find? (·.code = accountCode) with
    | none => internal
    | some a => reply (.balance accountCode a.balance)

def getTransactions (tenantId accountCode : String) (start finish : Option Time) (asked : ℤ)
    (pageToken : String) : Handler := do
  let tenantID ← parseUUID tenantId "tenant_id"
  validateNonEmpty "account_code" accountCode
  verifyAccountCode srv accountCode
  onTenant tenantID <| verifyAccountOwnership tenantID accountCode <|
    -- the page token is only looked at now
    match pageOffset srv.parsers pageToken with
    | .error s => refuse (.status s)
    | .ok offset =>
      .select tenantID fun rs =>
        if offset < 0 then internal
        else
          let all := ((rs.filterMap Row.account?).find? (·.code = accountCode)).elim [] AccountRow.entries
          let inRange := all.filter fun e => start.all (· ≤ e.1) && e.1 < finish.getD srv.now
          reply (.entries ((inRange.drop offset.toNat).take (cappedPageSize asked).toNat))

def LedgerRequest.handler : LedgerRequest → Handler
  | .getAccounts tenantId => Api.getAccounts srv tenantId
  | .getAccountBalance tenantId accountCode => Api.getAccountBalance srv tenantId accountCode
  | .getTransactions tenantId accountCode start finish asked pageToken =>
    Api.getTransactions srv tenantId accountCode start finish asked pageToken

/-! ## AuthService -/

/-- The query `ValidateAPIKey`: the row of a key that is active and has not expired, and its tenant. -/
def findAPIKey (now : Time) (hash : String) (next : Option TenantRow → Q) : Q :=
  .lookup (.keyHash hash) fun r =>
    match r.bind Row.apiKey? with
    | none => next none
    | some k =>
      if k.isActive && k.expiresAt.all (now < ·) then getTenant k.tenantID next
      else next none

def validateAPIKey (keyHash : String) : Handler := do
  validateNonEmpty "key_hash" keyHash
  if srv.authStore then
    .ok (.named (.keyHash keyHash), findAPIKey srv.now keyHash fun t => reply (.validated t))
  else .ok (.shared, reply (.validated none))

end Settla.Api
