import Settla.Core.Deposit
import Settla.Domain.BankDeposit

/-!
# The bank deposit engine

The methods of `core/bankdeposit/engine.go` on an existing session. A credit that is accepted is
credited at once; one outside the range of a session that rejects mismatches fails it, with a refund.
-/

namespace Settla.BankDeposit

open Settla.Core
open Settla.Deposit (Result)

/-- Exact `NUMERIC` amounts, and credits that are told apart by their bank reference. -/
def tables : SessionTables BankDepositSession BankDepositTransaction where
  tenantID := (·.tenantID)
  version := (·.version)
  sameKey t t' := t.bankReference = t'.bankReference
  insert t := t
  accumulate t s := { s with receivedAmount := s.receivedAmount + t.amount }
  update row s :=
    { row with
      status := s.status
      version := s.version
      -- the amount the engine loaded, with what it added; not what the row has now
      receivedAmount := s.receivedAmount
      feeAmount := s.feeAmount
      netAmount := s.netAmount
      settlementTransferID := s.settlementTransferID
      payerName := if s.payerName = "" then row.payerName else s.payerName
      payerReference := if s.payerReference = "" then row.payerReference else s.payerReference
      bankReference := if s.bankReference = "" then row.bankReference else s.bankReference
      failureReason := if s.failureReason = .text "" then row.failureReason else s.failureReason
      failureCode := if s.failureCode = "" then row.failureCode else s.failureCode }

abbrev DB := SessionDB BankDepositSession BankDepositTransaction BankDepositEntry

abbrev Program := SessionProg BankDepositSession BankDepositTransaction BankDepositEntry

def calculateBankCollectionFee (amount : Decimal) (f : FeeSchedule) : Decimal :=
  (f.calculateFee amount .bankCollection).getD 0

/-! ## Entries -/

variable (s : BankDepositSession)

/-- `NewOutboxEvent` and `NewOutboxIntent` for a session. -/
def entry (body : BankDepositBody) : BankDepositEntry := ⟨s.id, s.tenantID, body⟩

def bankDepositNotificationEntries (t : BankDepositEvent) (subject : BankDepositSubject)
    (data : BankDepositSessionEventPayload) : List BankDepositEntry :=
  [entry s (.webhookDeliver t data), entry s (.emailNotify t subject data)]

/-- The payload of most events: the session in its new status with an amount. -/
def sessionData (amount : Decimal) (reason : FailReason := .text "") :
    BankDepositSessionEventPayload :=
  ⟨s.id, s.tenantID, s.status, s.currency, amount, reason⟩

def reasonData (reason : FailReason) : BankDepositSessionEventPayload :=
  { sessionID := s.id, tenantID := s.tenantID, status := s.status, reason := reason }

/-- `IntentRecycleVirtualAccount`, for a temporary account. -/
def recycleEntries : List BankDepositEntry :=
  if s.accountType = .temporary then [entry s (.recycleAccount ⟨s.accountNumber, s.bankingPartnerID⟩)] else []

/-! ## Methods -/

/-- `TransitionTo`, then `TransitionWithOutbox`. What follows may go on with the new session. -/
def advance (step : String) (s : BankDepositSession) (target : BankDepositSessionStatus)
    (entries : BankDepositSession → List BankDepositEntry) (k : BankDepositSession → Program) : Program :=
  match s.transitionTo target with
  | none => .ret (.error (.invalidTransition step s.status.string target.string))
  | some s' => transitionWithOutbox tables step s' (entries s') (k s')

def done : BankDepositSession → Program := fun _ => .ret (.ok ())

def inStatus (step : String) (s : BankDepositSession) (status : BankDepositSessionStatus) (target : String)
    (k : Program) : Program :=
  if s.status ≠ status then .ret (.error (.invalidTransition step s.status.string target)) else k

def failSession (reason : FailReason) (code : String) : Program :=
  advance "fail session" { s with failureReason := reason, failureCode := code } .failed
    (fun s => entry s (.event .failed (reasonData s reason)) ::
      bankDepositNotificationEntries s .failed (.failed reason) (reasonData s reason)) done

/-- `handleMismatch`: two transitions of the same loaded session. -/
def handleMismatch (status : BankDepositSessionStatus) (reason : String) : Program :=
  let event : BankDepositEvent := if status = .underpaid then .underpaid else .overpaid
  advance "handle mismatch" s status
    (fun s =>
      let data := sessionData s s.receivedAmount (.text reason)
      entry s (.event event data) ::
        bankDepositNotificationEntries s event
          (.mismatch reason s.receivedAmount s.expectedAmount s.currency) data ++
        [entry s (.refund ⟨s.id, s.tenantID, s.accountNumber, s.receivedAmount, s.currency, reason⟩)])
    fun s => failSession s (.mismatch reason s.receivedAmount s.expectedAmount) "PAYMENT_MISMATCH"

variable (tenantID : UUID)

def initiateCredit : Program :=
  getSession tables "initiate credit" tenantID fun s =>
    inStatus "initiate credit" s .paymentReceived (BankDepositSessionStatus.string .crediting) <|
      getTenant "initiate credit" s fun schedule =>
        let fee := calculateBankCollectionFee s.receivedAmount schedule
        let net := s.receivedAmount - fee
        advance "initiate credit" s .crediting
          (fun s => [entry s (.credit
              { sessionID := s.id
                tenantID := s.tenantID
                currency := s.currency
                grossAmount := s.receivedAmount
                feeAmount := fee
                netAmount := net
                bankReference := s.bankReference
                idempotencyKey := "bank-deposit-credit:" ++ s.id.string }),
            entry s (.event .crediting (sessionData s net))])
          done

def validateAndRoutePayment : Program :=
  getSession tables "validate payment" tenantID fun s =>
    inStatus "validate payment" s .paymentReceived "amount_validation" <|
      if s.receivedAmount < s.minAmount ∧ s.mismatchPolicy = .reject then handleMismatch s .underpaid "underpaid"
      else if s.maxAmount < s.receivedAmount ∧ s.mismatchPolicy = .reject then handleMismatch s .overpaid "overpaid"
      else initiateCredit tenantID

variable (credit : IncomingBankCredit)

/-- The transaction `HandleBankCreditReceived` records. -/
def newDepositTx : BankDepositTransaction where
  sessionID := s.id
  tenantID := s.tenantID
  bankReference := credit.bankReference
  payerName := credit.payerName
  payerAccountNumber := credit.payerAccountNumber
  amount := credit.amount
  currency := credit.currency

/-- The entries of a received payment; `late` is for a session that had expired or been
cancelled. -/
def receivedEntries (late : Bool) (s : BankDepositSession) : List BankDepositEntry :=
  let data := sessionData s credit.amount
  entry s (.event .paymentReceived data) ::
    bankDepositNotificationEntries s .paymentReceived (.received credit.amount s.currency) data ++
  if late then [entry s (.event .latePayment (sessionData s credit.amount (.text "late_payment")))] else []

/-- `HandleBankCreditReceived` once the credit is recorded. -/
def afterRecord (s : BankDepositSession) (credit : IncomingBankCredit) : Program :=
  -- already PAYMENT_RECEIVED or further along: the credit is only recorded
  if ¬ s.canTransitionTo .paymentReceived then .ret (.ok ())
  else
    advance "handle bank credit"
      { s with
        receivedAmount := s.receivedAmount + credit.amount
        payerName := credit.payerName
        payerReference := credit.payerReference
        bankReference := credit.bankReference }
      .paymentReceived (receivedEntries credit (s.status = .expired ∨ s.status = .cancelled))
      fun _ => validateAndRoutePayment tenantID

def handleBankCreditReceived : Program :=
  getSession tables "handle bank credit" tenantID fun s =>
    let depositTx := newDepositTx s credit
    findTx tables s depositTx fun found =>
      if found then .ret (.ok ())
      else recordTx tables "handle bank credit" s depositTx (afterRecord tenantID s credit)

def initiateSettlement : Program :=
  inStatus "initiate settlement" s .credited (BankDepositSessionStatus.string .settling) <|
    advance "initiate settlement" s .settling
      (fun s => [entry s (.settle ⟨s.id, s.tenantID, s.currency, s.netAmount, "USD"⟩),
        entry s (.event .settling (sessionData s s.netAmount))]) done

def holdSession : Program :=
  inStatus "hold session" s .credited (BankDepositSessionStatus.string .held) <|
    advance "hold session" s .held
      (fun s => entry s (.event .held (sessionData s s.netAmount)) ::
        bankDepositNotificationEntries s .held (.held s.netAmount s.currency) (sessionData s s.netAmount)) done

def routeAfterCredit : Program :=
  getSession tables "route after credit" tenantID fun s =>
    match s.settlementPref with
    | .autoConvert => initiateSettlement s
    | .hold => holdSession s
    | .threshold => holdSession s

def handleCreditResult (r : Result) : Program :=
  getSession tables "handle credit result" tenantID fun s =>
    inStatus "handle credit result" s .crediting (BankDepositSessionStatus.string .credited) <|
      if ¬ r.success then failSession s (.text r.error) r.errorCode
      else
        getTenant "handle credit result" s fun schedule =>
          let fee := calculateBankCollectionFee s.receivedAmount schedule
          let net := s.receivedAmount - fee
          advance "handle credit result" { s with feeAmount := fee, netAmount := net } .credited
            (fun s => entry s (.event .credited (sessionData s net)) ::
              bankDepositNotificationEntries s .credited (.credited net s.currency) (sessionData s net))
            fun _ => routeAfterCredit tenantID

def handleSettlementResult (r : Result) : Program :=
  getSession tables "handle settlement result" tenantID fun s =>
    inStatus "handle settlement result" s .settling (BankDepositSessionStatus.string .settled) <|
      if ¬ r.success then failSession s (.text r.error) r.errorCode
      else
        advance "handle settlement result"
          { s with settlementTransferID := r.transferID.or s.settlementTransferID } .settled
          (fun s => entry s (.event .settled (sessionData s s.netAmount)) ::
            bankDepositNotificationEntries s .settled (.settled s.netAmount s.currency) (sessionData s s.netAmount))
          done

/-- `ExpireSession`: a session that has moved on is left alone. -/
def expireSession : Program :=
  getSession tables "expire session" tenantID fun s =>
    if s.status ≠ .pendingPayment then .ret (.ok ())
    else
      advance "expire session" s .expired
        (fun s => entry s (.event .expired (reasonData s (.text "ttl_exceeded"))) :: recycleEntries s ++
          bankDepositNotificationEntries s .expired .expired (reasonData s (.text "ttl_exceeded"))) done

def cancelSession : Program :=
  getSession tables "cancel session" tenantID fun s =>
    inStatus "cancel session" s .pendingPayment (BankDepositSessionStatus.string .cancelled) <|
      advance "cancel session" s .cancelled
        (fun s => entry s (.event .cancelled (reasonData s (.text "user_cancelled"))) :: recycleEntries s ++
          bankDepositNotificationEntries s .cancelled .cancelled (reasonData s (.text "user_cancelled"))) done

inductive Call
  | handleBankCreditReceived (credit : IncomingBankCredit)
  | handleCreditResult (r : Result)
  | handleSettlementResult (r : Result)
  | expireSession | cancelSession

def program (c : SessionCall Call) : Program :=
  match c.call with
  | .handleBankCreditReceived credit => handleBankCreditReceived c.tenantID credit
  | .handleCreditResult r => handleCreditResult c.tenantID r
  | .handleSettlementResult r => handleSettlementResult c.tenantID r
  | .expireSession => expireSession c.tenantID
  | .cancelSession => cancelSession c.tenantID

def recorded (db : DB) : List BankDepositTransaction := db.txs.filter fun t => t.sessionID = db.row.id

end Settla.BankDeposit
