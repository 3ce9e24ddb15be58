import Settla.Api.Server

/-!
# Deposit, bank deposit and payment link services

With `CreateSession` and `CancelSession` of the engine. Three methods carry no tenant: the
public status of a session, and the two that go by the short code of a link.
-/

namespace Settla.Api

/-! ## The deposit engine -/

structure CreateSessionRequest where
  idempotencyKey : String
  chain : CryptoChain
  token : String
  expectedAmount : Decimal
  settlementPref : Option SettlementPreference
  ttlSeconds : ℤ

/-- The address `DispenseAddress` picks: the undispensed one with the least index. -/
def nextAddress (chain : CryptoChain) (pool : List PoolAddress) : Option PoolAddress :=
  (pool.filter fun a => a.chain = chain && ! a.dispensed).foldl
    (fun best a => match best with
      | none => some a
      | some b => if a.derivationIndex < b.derivationIndex then some a else some b) none

variable (srv : Server)

def newSessionRow (tenant : TenantRow) (tenantID : UUID) (req : CreateSessionRequest)
    (a : PoolAddress) : SessionRow :=
  let ttl := if 0 < req.ttlSeconds then req.ttlSeconds else tenant.defaultSessionTTLSecs
  { id := srv.newID, tenantID := tenantID, status := .pendingPayment, version := 1, chain := req.chain,
    token := req.token, expectedAmount := req.expectedAmount, receivedAmount := 0, feeAmount := 0, netAmount := 0,
    settlementPref := req.settlementPref.getD tenant.defaultSettlementPref, settlementTransferID := none,
    failureReason := "", failureCode := "", idempotencyKey := req.idempotencyKey, depositAddress := a.address,
    currency := toUpper req.token, collectionFeeBPS := tenant.feeSchedule.cryptoCollectionBPS,
    expiresAt := srv.now + (if 0 < ttl then ttl else 3600) * second, createdAt := srv.now }

/-- The outbox records of a new session. -/
def sessionRecords (tenantID : UUID) : List Row :=
  ["deposit.monitor.address", "deposit.session.created", "webhook.deliver", "email.notify"].map
    (Row.record .outbox tenantID srv.newID)

def SessionRow.pending (s : SessionRow) : Bool := s.status ∉ [.settled, .expired, .failed, .cancelled]

def createSession (tenantID : UUID) (req : CreateSessionRequest) (fail : SessionFault → Fault)
    (next : SessionRow → Q) : Q :=
  .select tenantID fun rs =>
    let sessions := rs.filterMap Row.session?
    match (rs.filterMap Row.tenant?).head? with
    | none => refuse (fail .loadingTenant)
    | some tenant =>
      if tenant.status ≠ .active then refuse (fail .tenantSuspended)
      else if ! tenant.cryptoEnabled then refuse (fail .cryptoDisabled)
      else if req.chain ∉ tenant.supportedChains then refuse (fail (.chainNotSupported req.chain))
      else if req.expectedAmount ≤ 0 then refuse (fail (.amountTooLow req.expectedAmount))
      else if 0 < tenant.maxPendingTransfers ∧ tenant.maxPendingTransfers ≤ sessions.countP SessionRow.pending then
        refuse (fail (.maxPendingSessions tenant.maxPendingTransfers))
      else
        match sessions.find? fun s => req.idempotencyKey ≠ "" && s.idempotencyKey = req.idempotencyKey with
        | some s => next s
        | none =>
          match nextAddress req.chain (rs.filterMap Row.poolAddress?) with
          | none => refuse (fail (.addressPoolEmpty req.chain))
          | some a =>
            let s := newSessionRow srv tenant tenantID req a
            .change tenantID (dispenseAddress a) (insertAll (.session s :: sessionRecords srv tenantID) (next s))

/-! ## DepositService -/

inductive DepositRequest
  | createDepositSession (tenantId expectedAmount chain token idempotencyKey : String)
      (settlementPref : Option SettlementPreference) (ttlSeconds : ℤ)
  | getDepositSession (tenantId sessionId : String)
  | listDepositSessions (tenantId : String) (asked : ℤ) (pageToken : String)
  | cancelDepositSession (tenantId sessionId : String)
  | getDepositSessionByTxHash (tenantId chain txHash : String)
  | getDepositSessionPublicStatus (sessionId : String)

variable (tenantId : String)

def depositTenant : Except Status UUID := do
  configured srv.depositEngine "deposit service not configured"
  parseUUID tenantId "tenant_id"

def createDepositSession (tenantId expectedAmount chain token idempotencyKey : String)
    (settlementPref : Option SettlementPreference) (ttlSeconds : ℤ) : Handler := do
  let tenantID ← depositTenant srv tenantId
  let amount ← parseDecimal srv.parsers expectedAmount "expected_amount"
  validateDecimalAmount srv.parsers expectedAmount
  validateNonEmpty "chain" chain
  validateNonEmpty "token" token
  onTenant tenantID <|
    createSession srv tenantID ⟨idempotencyKey, chain, token, amount, settlementPref, ttlSeconds⟩ .deposit fun s =>
      reply (.session s)

def replySession (tenantID sessionID : UUID) : Q :=
  getSession tenantID sessionID fun
    | none => refuse (.deposit (.sessionNotFound sessionID))
    | some s => reply (.session s)

def getDepositSession (tenantId sessionId : String) : Handler := do
  let tenantID ← depositTenant srv tenantId
  let sessionID ← parseUUID sessionId "session_id"
  onTenant tenantID <| replySession tenantID sessionID

def listDepositSessions (asked : ℤ) (pageToken : String) : Handler := do
  let tenantID ← depositTenant srv tenantId
  let cursor ← pageCursor srv.parsers pageToken
  onTenant tenantID <| .select tenantID fun rs =>
    reply (.sessions (((rs.filterMap Row.session?).reverse.filter fun s => cursor.all (s.createdAt < ·)).take
      (pageSize asked 100 20).toNat))

def engineCancelSession (tenantID sessionID : UUID) (srv : Server) (next : Q) : Q :=
  getSession tenantID sessionID fun
    | none => refuse (.deposit (.sessionNotFound sessionID))
    | some s =>
      if s.status ≠ .pendingPayment then refuse (.deposit (.invalidTransition s.status))
      else
        .change tenantID
          (updateSession sessionID (fun s => { s with status := .cancelled, version := s.version + 1 })
            fun _ => ⟨rfl, rfl⟩) <|
        insertAll (["deposit.session.cancelled", "webhook.deliver", "email.notify"].map
          (Row.record .outbox tenantID srv.newID)) next

def cancelDepositSession (tenantId sessionId : String) : Handler := do
  let tenantID ← depositTenant srv tenantId
  let sessionID ← parseUUID sessionId "session_id"
  onTenant tenantID <| engineCancelSession tenantID sessionID srv (replySession tenantID sessionID)

/-- The transaction is looked up by its hash alone, then the session by tenant. -/
def getDepositSessionByTxHash (tenantId chain txHash : String) : Handler := do
  let tenantID ← depositTenant srv tenantId
  validateNonEmpty "chain" chain
  validateNonEmpty "tx_hash" txHash
  .ok (.namedFor (.txHash chain txHash) tenantID, .lookup (.txHash chain txHash) fun
    | some (.depositTx tx) =>
      getSession tenantID tx.sessionID fun
        | none =>
          refuse (.deposit (.txOfOther (if srv.appPool then none else some tx.sessionID) chain txHash))
        | some s => reply (.session s)
    | _ => refuse (.deposit (.txNotFound chain txHash)))

def getDepositSessionPublicStatus (sessionId : String) : Handler := do
  configured srv.depositEngine "deposit service not configured"
  let sessionID ← parseUUID sessionId "session_id"
  .ok (.named (.sessionID sessionID), .lookup (.sessionID sessionID) fun r =>
    match r.bind Row.session? with
    | none => refuse (.deposit (.sessionNotFound sessionID))
    | some s =>
      reply (.publicStatus s.id s.status s.chain s.token s.depositAddress s.expectedAmount s.receivedAmount
        s.expiresAt))

def DepositRequest.handler : DepositRequest → Handler
  | .createDepositSession tenantId expectedAmount chain token idempotencyKey settlementPref ttlSeconds =>
    Api.createDepositSession srv tenantId expectedAmount chain token idempotencyKey settlementPref ttlSeconds
  | .getDepositSession tenantId sessionId => Api.getDepositSession srv tenantId sessionId
  | .listDepositSessions tenantId asked pageToken => Api.listDepositSessions srv tenantId asked pageToken
  | .cancelDepositSession tenantId sessionId => Api.cancelDepositSession srv tenantId sessionId
  | .getDepositSessionByTxHash tenantId chain txHash => Api.getDepositSessionByTxHash srv tenantId chain txHash
  | .getDepositSessionPublicStatus sessionId => Api.getDepositSessionPublicStatus srv sessionId

/-! ## BankDepositService -/

structure BankSessionMessage where
  (tenantId currency bankingPartnerId accountType expectedAmount minAmount maxAmount : String)
  (mismatchPolicy settlementPref idempotencyKey : String)
  ttlSeconds : ℤ

inductive BankDepositRequest
  | createBankDepositSession (m : BankSessionMessage)
  | getBankDepositSession (tenantId sessionId : String)
  | listBankDepositSessions (tenantId : String) (asked : ℤ) (pageToken : String)
  | cancelBankDepositSession (tenantId sessionId : String)
  | listVirtualAccounts (tenantId currency accountType : String) (asked limit offset : ℤ) (pageToken : String)
  | getBankingPartner (partnerId : String)

def bankTenant : Except Status UUID := do
  configured srv.bankDepositEngine "bank deposit service not configured"
  parseUUID tenantId "tenant_id"

def optionalDecimal (p : Parsers) (s field : String) : Except Status Decimal :=
  if s = "" then .ok 0 else parseDecimal p s field

def createBankDepositSession (m : BankSessionMessage) : Handler := do
  let tenantID ← bankTenant srv m.tenantId
  let expected ← parseDecimal srv.parsers m.expectedAmount "expected_amount"
  validateDecimalAmount srv.parsers m.expectedAmount
  validateNonEmpty "currency" m.currency
  let minimum ← optionalDecimal srv.parsers m.minAmount "min_amount"
  let maximum ← optionalDecimal srv.parsers m.maxAmount "max_amount"
  writeTenant srv tenantID (.createBankSession m.currency m.bankingPartnerId m.accountType expected minimum maximum
    m.mismatchPolicy m.settlementPref m.idempotencyKey m.ttlSeconds)

def getBankDepositSession (tenantId sessionId : String) : Handler := do
  let tenantID ← bankTenant srv tenantId
  let sessionID ← parseUUID sessionId "session_id"
  readTenant srv tenantID (.bankSession sessionID)

def listBankDepositSessions (asked : ℤ) (pageToken : String) : Handler := do
  let tenantID ← bankTenant srv tenantId
  let cursor ← pageCursor srv.parsers pageToken
  readTenant srv tenantID (.bankSessions (pageSize asked 100 20) cursor)

def cancelBankDepositSession (tenantId sessionId : String) : Handler := do
  let tenantID ← bankTenant srv tenantId
  let sessionID ← parseUUID sessionId "session_id"
  writeTenant srv tenantID (.cancelBankSession sessionID)

def listVirtualAccounts (tenantId currency accountType : String) (asked limit offset : ℤ)
    (pageToken : String) : Handler := do
  let tenantID ← bankTenant srv tenantId
  let size := pageSize (if asked ≤ 0 then limit else asked) 100 20
  let cursor ← pageCursor srv.parsers pageToken
  readTenant srv tenantID (.virtualAccounts currency accountType size (max offset 0) cursor)

def getBankingPartner (partnerId : String) : Handler := do
  let partnerID ← parseUUID partnerId "partner_id"
  configured srv.bankingPartnerStore "banking partner store not configured"
  .ok (.shared, match srv.engines.bankingPartner partnerID with
    | none => refuseWith .notFound "banking partner not found"
    | some p => reply (.text p))

def BankDepositRequest.handler : BankDepositRequest → Handler
  | .createBankDepositSession m => Api.createBankDepositSession srv m
  | .getBankDepositSession tenantId sessionId => Api.getBankDepositSession srv tenantId sessionId
  | .listBankDepositSessions tenantId asked pageToken => Api.listBankDepositSessions srv tenantId asked pageToken
  | .cancelBankDepositSession tenantId sessionId => Api.cancelBankDepositSession srv tenantId sessionId
  | .listVirtualAccounts tenantId currency accountType asked limit offset pageToken =>
    Api.listVirtualAccounts srv tenantId currency accountType asked limit offset pageToken
  | .getBankingPartner partnerId => Api.getBankingPartner srv partnerId

/-! ## PaymentLinkService -/

structure PaymentLinkMessage where
  (tenantId description redirectUrl amount currency chain token : String)
  settlementPref : Option SettlementPreference
  (ttlSeconds useLimit expiresAtUnix : ℤ)

inductive PaymentLinkRequest
  | createPaymentLink (m : PaymentLinkMessage)
  | getPaymentLink (tenantId linkId : String)
  | listPaymentLinks (tenantId : String) (asked limit offset : ℤ) (pageToken : String)
  | resolvePaymentLink (shortCode : String)
  | redeemPaymentLink (shortCode : String)
  | disablePaymentLink (tenantId linkId : String)

def linkTenant : Except Status UUID := do
  configured srv.paymentLinkService "payment link service not configured"
  parseUUID tenantId "tenant_id"

def linkURL (l : PaymentLink) : String := srv.paymentLinkBaseURL ++ "/" ++ l.shortCode

def newPaymentLink (tenantID : UUID) (m : PaymentLinkMessage) (amount : Decimal) : PaymentLink where
  id := srv.newID
  tenantID := tenantID
  shortCode := srv.shortCode
  description := m.description
  redirectURL := m.redirectUrl
  status := .active
  amount := amount
  currency := m.currency
  chain := m.chain
  token := m.token
  settlementPref := m.settlementPref
  ttlSeconds := m.ttlSeconds
  useLimit := if 0 < m.useLimit then some m.useLimit else none
  useCount := 0
  expiresAt := if 0 < m.expiresAtUnix then some (m.expiresAtUnix * second) else none
  createdAt := srv.now

def createPaymentLink (m : PaymentLinkMessage) : Handler := do
  let tenantID ← linkTenant srv m.tenantId
  let amount ← parseDecimal srv.parsers m.amount "amount"
  validateDecimalAmount srv.parsers m.amount
  validateNonEmpty "chain" m.chain
  validateNonEmpty "token" m.token
  onTenant tenantID <| getTenant tenantID fun
    | none => refuse (.link .loadingTenant)
    | some tenant =>
      if tenant.status ≠ .active then refuse (.link .tenantSuspended)
      else if ! tenant.cryptoEnabled then refuse (.link .cryptoDisabled)
      else
        let l := newPaymentLink srv tenantID m amount
        .insert (.paymentLink l) (reply (.paymentLink l (linkURL srv l)))

def getPaymentLinkHandler (tenantId linkId : String) : Handler := do
  let tenantID ← linkTenant srv tenantId
  let linkID ← parseUUID linkId "link_id"
  onTenant tenantID <| getPaymentLink tenantID linkID fun
    | none => refuse (.link (.notFound linkID.string))
    | some l => reply (.paymentLink l (linkURL srv l))

def listPaymentLinks (asked limit offset : ℤ) (pageToken : String) : Handler := do
  let tenantID ← linkTenant srv tenantId
  let size := pageSize (if asked ≤ 0 then limit else asked) 100 20
  let cursor ← pageCursor srv.parsers pageToken
  onTenant tenantID <| .select tenantID fun rs =>
    let links := (rs.filterMap Row.paymentLink?).reverse
    let rest := match cursor with
      | none => links.drop (max offset 0).toNat
      | some t => links.filter (·.createdAt < t)
    reply (.paymentLinks (rest.take size.toNat))

def PaymentLink.canRedeem (l : PaymentLink) (now : Time) : Option LinkFault :=
  if l.status = .disabled then some (.disabled l.id)
  else if l.status = .expired then some (.expired l.id)
  else if l.expiresAt.any (· < now) then some (.expired l.id)
  else if l.useLimit.any (· ≤ l.useCount) then some (.exhausted l.id)
  else none

variable (shortCode : String)

/-- `Service.Resolve`: the link is found by its short code, whoever owns it. -/
def resolve (next : PaymentLink → Q) : Q :=
  .lookup (.shortCode shortCode) fun r =>
    match r.bind Row.paymentLink? with
    | none => refuse (.link (.notFound shortCode))
    | some l =>
      match l.canRedeem srv.now with
      | some e => refuse (.link e)
      | none => next l

def linkCode : Except Status Unit := do
  configured srv.paymentLinkService "payment link service not configured"
  validateNonEmpty "short_code" shortCode

def resolvePaymentLink : Handler := do
  linkCode srv shortCode
  .ok (.named (.shortCode shortCode), resolve srv shortCode fun l => reply (.paymentLink l (linkURL srv l)))

/-- The session of a link is created for the tenant of the link. -/
def redeemPaymentLink : Handler := do
  linkCode srv shortCode
  .ok (.named (.shortCode shortCode), resolve srv shortCode fun l =>
    createSession srv l.tenantID
      ⟨"plink:" ++ l.id.string ++ ":" ++ toString (l.useCount + 1), l.chain, l.token, l.amount, l.settlementPref,
        l.ttlSeconds⟩ (fun e => .link (.session e)) fun s =>
      .change l.tenantID
        (updatePaymentLink l.id (fun l => { l with useCount := l.useCount + 1 }) fun _ => ⟨rfl, rfl⟩)
        (reply (.redeemed s l (linkURL srv l))))

def disablePaymentLink (tenantId linkId : String) : Handler := do
  let tenantID ← linkTenant srv tenantId
  let linkID ← parseUUID linkId "link_id"
  onTenant tenantID <| getPaymentLink tenantID linkID fun
    | none => refuse (.link (.notFound linkID.string))
    | some _ =>
      .change tenantID (updatePaymentLink linkID (fun l => { l with status := .disabled }) fun _ => ⟨rfl, rfl⟩)
        (reply .empty)

def PaymentLinkRequest.handler : PaymentLinkRequest → Handler
  | .createPaymentLink m => Api.createPaymentLink srv m
  | .getPaymentLink tenantId linkId => getPaymentLinkHandler srv tenantId linkId
  | .listPaymentLinks tenantId asked limit offset pageToken =>
    Api.listPaymentLinks srv tenantId asked limit offset pageToken
  | .resolvePaymentLink shortCode => Api.resolvePaymentLink srv shortCode
  | .redeemPaymentLink shortCode => Api.redeemPaymentLink srv shortCode
  | .disablePaymentLink tenantId linkId => Api.disablePaymentLink srv tenantId linkId

end Settla.Api
