import Settla.Core.Engine

/-!
# Creating a transfer

`CreateTransfer` of `core/engine.go` with the checks in its order, and the row that is stored. The
columns round the amounts; the fee breakdown is stored as JSON and stays exact.
-/

namespace Settla.Core

structure Tenant where
  active : Bool
  (dailyLimitUSD perTransferLimit : Decimal)
  maxPendingTransfers : ℤ

structure CreateTransferRequest where
  (externalRef idempotencyKey : String)
  sourceCurrency : Currency
  sourceAmount : Decimal
  destCurrency : Currency
  sender : Sender
  recipient : Recipient
  quoteID : Option UUID

/-- What `CreateTransfer` finds outside: lookups that can fail give `none`. -/
structure CreateEnv where
  getTenant : UUID → Option Tenant
  getTransferByIdempotencyKey : UUID → String → Option Transfer
  countPendingTransfers : UUID → Option ℤ
  getQuote : UUID → UUID → Option Quote
  routerQuote : UUID → CreateTransferRequest → Option Quote
  createQuote : Quote → Bool
  (hasOnRamp hasOffRamp : String → Bool)
  dailyVolume : UUID → Option Decimal
  now : Time
  /-- the ID the engine draws for the new transfer -/
  newID : UUID
  /-- the ID the database assigns to the row -/
  rowID : UUID

inductive CreateErr
  | loadingTenant | tenantSuspended
  | amountTooLow (amount : Decimal)
  | unsupportedCurrency (c : Currency)
  | senderName
  | senderEmail (email : String)
  | recipientNameCountry
  | accountNumberLength (n : ℕ)
  | accountNumberCharacter (c : Char)
  | bankNameRequired | countingPending
  | maxPendingTransfers (max : ℤ)
  | fetchingQuote | quoteOfOtherTenant | quoteExpired | gettingQuote | persistingQuote
  | quoteSourceCurrency | quoteDestCurrency
  | quoteDestAmount (amount : Decimal)
  | quoteStableAmount (amount : Decimal)
  | quoteOnRampProvider | quoteOffRampProvider | quoteChain | quoteStableCoin
  | providerUnavailable (provider : String)
  | unsupportedChain (chain : CryptoChain)
  | amountTooHigh (amount limit : Decimal)
  | checkingDailyVolume | dailyLimitExceeded
  | feeNegative (fee : Decimal)
  | feeTotal (total expected : Decimal)
  | feesNotBelowSource (fees source : Decimal)
  | zeroFees | persisting
  deriving DecidableEq

def Sender.validate (s : Sender) : Except CreateErr Unit := do
  if s.name = "" then throw .senderName
  if s.email ≠ "" ∧ ¬ s.email.contains '@' then throw (.senderEmail s.email)

def accountNumberChar (c : Char) : Bool :=
  ('0' ≤ c && c ≤ '9') || ('a' ≤ c && c ≤ 'z') || ('A' ≤ c && c ≤ 'Z') || c = '-'

/-- The recipient checks. The length counts bytes. -/
def Recipient.validate (r : Recipient) : Except CreateErr Unit := do
  if r.name = "" ∨ r.country = "" then throw .recipientNameCountry
  if r.accountNumber ≠ "" then
    let n := r.accountNumber.utf8ByteSize
    if n < 4 ∨ 34 < n then throw (.accountNumberLength n)
    match r.accountNumber.toList.find? (fun c => ! accountNumberChar c) with
    | some c => throw (.accountNumberCharacter c)
    | none => pure ()
    if r.bankName = "" then throw .bankNameRequired

def Quote.validate (q : Quote) : Except CreateErr Unit := do
  if ¬ 0 < q.destAmount then throw (.quoteDestAmount q.destAmount)
  if ¬ 0 < q.stableAmount then throw (.quoteStableAmount q.stableAmount)
  if q.route.onRampProvider = "" then throw .quoteOnRampProvider
  if q.route.offRampProvider = "" then throw .quoteOffRampProvider
  if q.route.chain = "" then throw .quoteChain
  if q.route.stableCoin = "" then throw .quoteStableCoin

def FeeBreakdown.validate (f : FeeBreakdown) : Except CreateErr Unit := do
  if f.onRampFee < 0 then throw (.feeNegative f.onRampFee)
  if f.networkFee < 0 then throw (.feeNegative f.networkFee)
  if f.offRampFee < 0 then throw (.feeNegative f.offRampFee)
  let expectedTotal := f.onRampFee + f.networkFee + f.offRampFee
  if f.totalFeeUSD ≠ expectedTotal then throw (.feeTotal f.totalFeeUSD expectedTotal)

variable (e : CreateEnv)

variable (tenantID : UUID)

variable (req : CreateTransferRequest)

/-- Step d: the quote named in the request, or a fresh one that is stored first. -/
def resolveQuote : Except CreateErr Quote := do
  match req.quoteID with
  | some id =>
    match e.getQuote tenantID id with
    | none => throw .fetchingQuote
    | some q =>
      if q.tenantID ≠ tenantID then throw .quoteOfOtherTenant
      -- only a quote from the request can be old
      if q.expiresAt < e.now then throw .quoteExpired
      pure q
  | none =>
    match e.routerQuote tenantID req with
    | none => throw .gettingQuote
    | some q => if e.createQuote q then pure q else throw .persistingQuote

variable (tenant : Tenant)

def checkLimits (q : Quote) : Except CreateErr Unit := do
  if tenant.perTransferLimit ≠ 0 ∧ tenant.perTransferLimit < q.stableAmount then
    throw (.amountTooHigh q.stableAmount tenant.perTransferLimit)
  if tenant.dailyLimitUSD ≠ 0 then
    match e.dailyVolume tenantID with
    | none => throw .checkingDailyVolume
    | some volume => if tenant.dailyLimitUSD < volume + q.stableAmount then throw .dailyLimitExceeded

def newTransfer (q : Quote) : Transfer where
  id := e.newID
  tenantID := tenantID
  externalRef := req.externalRef
  idempotencyKey := req.idempotencyKey
  status := .created
  version := 1
  sourceCurrency := req.sourceCurrency
  sourceAmount := req.sourceAmount
  destCurrency := req.destCurrency
  destAmount := q.destAmount
  stableCoin := q.route.stableCoin
  stableAmount := q.stableAmount
  chain := q.route.chain
  fxRate := q.fxRate
  fees := q.fees
  onRampProviderID := q.route.onRampProvider
  offRampProviderID := q.route.offRampProvider
  sender := req.sender
  recipient := req.recipient
  quoteID := some (req.quoteID.getD q.id)

/-- Whether a value rounded to `scale` places fits `NUMERIC(28, scale)`. -/
def fitsNumeric (scale : ℕ) (d : Decimal) : Bool := |Lib.roundPlaces scale d| < 10 ^ (28 - scale)

/-- The row the database keeps of a new transfer, if its amounts fit the columns. -/
def storeRow (t : Transfer) : Option Transfer :=
  if fitsNumeric 8 t.sourceAmount ∧ fitsNumeric 8 t.destAmount ∧ fitsNumeric 8 t.stableAmount ∧
      fitsNumeric 12 t.fxRate then
    some { t with
      id := e.rowID
      -- the insert sets neither the ID nor the version of the engine
      version := 0
      sourceAmount := numeric8 t.sourceAmount
      destAmount := numeric8 t.destAmount
      stableAmount := numeric8 t.stableAmount
      fxRate := Lib.roundPlaces 12 t.fxRate }
  else none

/-- An earlier transfer with the same idempotency key, or a new row with its event. -/
inductive Created
  | existing (t : Transfer)
  | row (t : Transfer) (entries : List OutboxEntry)
  deriving DecidableEq

def checkRequest (req : CreateTransferRequest) : Except CreateErr Unit := do
  if ¬ tenant.active then throw .tenantSuspended
  if ¬ 0 < req.sourceAmount then throw (.amountTooLow req.sourceAmount)
  if req.sourceCurrency ∉ supportedCurrencies then throw (.unsupportedCurrency req.sourceCurrency)
  if req.destCurrency ∉ supportedCurrencies then throw (.unsupportedCurrency req.destCurrency)
  Sender.validate req.sender
  Recipient.validate req.recipient

def checkPending : Except CreateErr Unit := do
  if 0 < tenant.maxPendingTransfers then
    match e.countPendingTransfers tenantID with
    | none => throw .countingPending
    | some count =>
      if tenant.maxPendingTransfers ≤ count then throw (.maxPendingTransfers tenant.maxPendingTransfers)

/-- The checks on the quote before its amounts are used. -/
def checkQuote (q : Quote) : Except CreateErr Unit := do
  if q.sourceCurrency ≠ req.sourceCurrency then throw .quoteSourceCurrency
  if q.destCurrency ≠ req.destCurrency then throw .quoteDestCurrency
  Quote.validate q
  if ¬ e.hasOnRamp q.route.onRampProvider then throw (.providerUnavailable q.route.onRampProvider)
  if ¬ e.hasOffRamp q.route.offRampProvider then throw (.providerUnavailable q.route.offRampProvider)
  if q.route.chain ∉ supportedChains then throw (.unsupportedChain q.route.chain)

def checkFees (t : Transfer) : Except CreateErr Unit := do
  FeeBreakdown.validate t.fees
  if t.sourceAmount ≤ t.fees.totalFeeUSD then throw (.feesNotBelowSource t.fees.totalFeeUSD t.sourceAmount)
  if t.fees.totalFeeUSD = 0 then throw .zeroFees

/-- The part of `CreateTransfer` after the idempotency check. -/
def createRow (req : CreateTransferRequest) :
    Except CreateErr Created := do
  checkPending e tenantID tenant
  let q ← resolveQuote e tenantID req
  checkQuote e req q
  checkLimits e tenantID tenant q
  let t := newTransfer e tenantID req q
  checkFees t
  match storeRow e t with
  | none => throw .persisting
  | some row =>
    pure (.row row (setCorrelationID [newOutboxEvent "transfer" t.id tenantID .transferCreated row.id] t.id))

def createTransfer : Except CreateErr Created := do
  match e.getTenant tenantID with
  | none => throw .loadingTenant
  | some tenant =>
    checkRequest tenant req
    -- a repeated key is recognised only after the request has passed its checks
    let known := if req.idempotencyKey ≠ "" then e.getTransferByIdempotencyKey tenantID req.idempotencyKey else none
    match known with
    | some t => pure (.existing t)
    | none => createRow e tenantID tenant req

/-- Run `CreateTransfer` against the store. The insert fails if the row ID is taken. -/
def Store.create (s : Store) (e : CreateEnv) (tenantID : UUID) (req : CreateTransferRequest) : Store :=
  match createTransfer e tenantID req with
  | .error _ => s
  | .ok (.existing _) => s
  | .ok (.row t entries) =>
    match s.transfers t.id with
    | some _ => s
    | none => ⟨Function.update s.transfers t.id (some t), s.outbox ++ entries⟩

end Settla.Core
