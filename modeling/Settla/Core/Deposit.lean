import Settla.Core.SessionStore
import Settla.Domain.Deposit

/-!
# The crypto deposit engine

The methods of `core/deposit/engine.go` on an existing session. A session is detected, confirmed,
credited, and then settled or held; a payment after the first is only recorded.
-/

namespace Settla.Deposit

open Settla.Core

/-- `NUMERIC(28,8)` amounts, and payments that are told apart by chain and transaction hash. -/
def tables : SessionTables DepositSession DepositTransaction where
  tenantID := (·.tenantID)
  version := (·.version)
  sameKey t t' := t.chain = t'.chain && t.txHash = t'.txHash
  insert t := { t with amount := numeric8 t.amount }
  accumulate t s := { s with receivedAmount := numeric8 (s.receivedAmount + t.amount) }
  update row s :=
    { row with
      status := s.status
      version := s.version
      -- the amount the engine loaded, with what it added; not what the row has now
      receivedAmount := numeric8 s.receivedAmount
      feeAmount := numeric8 s.feeAmount
      netAmount := numeric8 s.netAmount
      settlementTransferID := s.settlementTransferID
      failureReason := if s.failureReason = "" then row.failureReason else s.failureReason
      failureCode := if s.failureCode = "" then row.failureCode else s.failureCode }

abbrev DB := SessionDB DepositSession DepositTransaction DepositEntry

abbrev Program := SessionProg DepositSession DepositTransaction DepositEntry

structure Result where
  success : Bool
  error : String := ""
  errorCode : String := ""
  /-- `transfer_id` of the metadata, if it is a UUID -/
  transferID : Option UUID := none

variable (s : DepositSession)

def requiredConfirmations : ℤ :=
  if s.chain = "tron" then 19
  else if s.chain = "ethereum" ∨ s.chain = "base" ∨ s.chain = "polygon" ∨ s.chain = "solana" then 12
  else 20

def calculateCollectionFee (amount : Decimal) (f : FeeSchedule) : Decimal :=
  (f.calculateFee amount .cryptoCollection).getD 0

/-! ## Entries -/

/-- `NewOutboxEvent` and `NewOutboxIntent` for a session. -/
def entry (body : DepositBody) : DepositEntry := ⟨s.id, s.tenantID, body⟩

def depositNotificationEntries (t : DepositEvent) (subject : DepositSubject)
    (data : DepositData) : List DepositEntry :=
  [entry s (.webhookDeliver t data), entry s (.emailNotify t subject data)]

def notified (t : DepositEvent) (subject : DepositSubject) (data : DepositData) :
    List DepositEntry :=
  entry s (.event t data) :: depositNotificationEntries s t subject data

/-- The payload of most events: the session in its new status with an amount. -/
def sessionData (amount : Decimal) : DepositData :=
  .session { sessionID := s.id, tenantID := s.tenantID, status := s.status, chain := s.chain, token := s.token,
             amount := amount }

def reasonData (reason : String) : DepositData :=
  .session { sessionID := s.id, tenantID := s.tenantID, status := s.status, reason := reason }

/-! ## Methods -/

/-- `TransitionTo`, then `TransitionWithOutbox` with the entries of the new session. -/
def advance (step : String) (s : DepositSession) (target : DepositSessionStatus)
    (entries : DepositSession → List DepositEntry) (k : Program) : Program :=
  match s.transitionTo target with
  | none => .ret (.error (.invalidTransition step s.status.string target.string))
  | some s' => transitionWithOutbox tables step s' (entries s') k

def inStatus (step : String) (s : DepositSession) (status target : DepositSessionStatus) (k : Program) : Program :=
  if s.status ≠ status then .ret (.error (.invalidTransition step s.status.string target.string)) else k

/-- The transaction `HandleTransactionDetected` records. -/
def newDepositTx (tx : IncomingTransaction) : DepositTransaction where
  sessionID := s.id
  tenantID := s.tenantID
  chain := tx.chain
  txHash := tx.txHash
  fromAddress := tx.fromAddress
  toAddress := tx.toAddress
  tokenContract := tx.tokenContract
  amount := tx.amount
  blockNumber := tx.blockNumber
  blockHash := tx.blockHash
  confirmations := 0
  requiredConfirm := requiredConfirmations s
  confirmed := false

/-- The entries of a detected transaction; `late` is for a session that had expired or been
cancelled. -/
def detectedEntries (tx : IncomingTransaction) (late : Bool) (s : DepositSession) : List DepositEntry :=
  notified s .txDetected (.detected tx.amount s.token tx.chain)
    (.txDetected ⟨s.id, s.tenantID, tx.txHash, tx.chain, s.token, tx.amount, tx.blockNumber⟩) ++
  if late then
    [entry s (.event .latePayment (.session
      { sessionID := s.id, tenantID := s.tenantID, status := .detected, chain := tx.chain, token := s.token,
        amount := tx.amount, reason := "late_payment" }))]
  else []

variable (tenantID : UUID)

def handleTransactionDetected (tx : IncomingTransaction) : Program :=
  getSession tables "handle tx detected" tenantID fun s =>
    let depositTx := newDepositTx s tx
    findTx tables s depositTx fun found =>
      if found then .ret (.ok ())
      else
        recordTx tables "handle tx detected" s depositTx <|
          -- already DETECTED or further along: the transaction is only recorded
          if ¬ s.canTransitionTo .detected then .ret (.ok ())
          else
            advance "handle tx detected" { s with receivedAmount := s.receivedAmount + tx.amount } .detected
              (detectedEntries tx (s.status = .expired ∨ s.status = .cancelled)) (.ret (.ok ()))

def creditIntent (fee : Decimal) (txHash : String) : DepositBody :=
  .credit
    { sessionID := s.id
      tenantID := s.tenantID
      chain := s.chain
      token := s.token
      grossAmount := s.receivedAmount
      feeAmount := fee
      netAmount := s.receivedAmount - fee
      txHash := txHash
      idempotencyKey := "deposit-credit:" ++ s.id.string }

def initiateCredit (txHash : String) : Program :=
  getSession tables "initiate credit" tenantID fun s =>
    inStatus "initiate credit" s .confirmed .crediting <|
      getTenant "initiate credit" s fun schedule =>
        let fee := calculateCollectionFee s.receivedAmount schedule
        advance "initiate credit" s .crediting
          (fun s => [entry s (creditIntent s fee txHash),
            entry s (.event .crediting (sessionData s (s.receivedAmount - fee)))])
          (.ret (.ok ()))

/-- `HandleTransactionConfirmed`. Neither the hash nor the confirmations are checked. -/
def handleTransactionConfirmed (txHash : String) (confirmations : ℤ) : Program :=
  getSession tables "handle tx confirmed" tenantID fun s =>
    inStatus "handle tx confirmed" s .detected .confirmed <|
      advance "handle tx confirmed" s .confirmed
        (fun s => notified s .txConfirmed (.confirmed s.receivedAmount s.token confirmations)
          (.txConfirmed ⟨s.id, s.tenantID, txHash, s.chain, s.token, s.receivedAmount, confirmations⟩))
        (initiateCredit tenantID txHash)

def failSession (reason code : String) : Program :=
  advance "fail session" { s with failureReason := reason, failureCode := code } .failed
    (fun s => notified s .failed (.failed reason) (reasonData s reason)) (.ret (.ok ()))

def initiateSettlement : Program :=
  inStatus "initiate settlement" s .credited .settling <|
    advance "initiate settlement" s .settling
      (fun s => [entry s (.settle ⟨s.id, s.tenantID, s.chain, s.token, s.netAmount, "USD"⟩),
        entry s (.event .settling (sessionData s s.netAmount))])
      (.ret (.ok ()))

def holdSession : Program :=
  inStatus "hold session" s .credited .held <|
    advance "hold session" s .held
      (fun s => notified s .held (.held s.netAmount s.token) (sessionData s s.netAmount)) (.ret (.ok ()))

def routeAfterCredit : Program :=
  getSession tables "route after credit" tenantID fun s =>
    match s.settlementPref with
    | .autoConvert => initiateSettlement s
    | .hold => holdSession s
    | .threshold => holdSession s

def handleCreditResult (r : Result) : Program :=
  getSession tables "handle credit result" tenantID fun s =>
    inStatus "handle credit result" s .crediting .credited <|
      if ¬ r.success then failSession s r.error r.errorCode
      else
        getTenant "handle credit result" s fun schedule =>
          let fee := calculateCollectionFee s.receivedAmount schedule
          let net := s.receivedAmount - fee
          advance "handle credit result" { s with feeAmount := fee, netAmount := net } .credited
            (fun s => notified s .credited (.credited net s.token) (sessionData s net))
            (routeAfterCredit tenantID)

def handleSettlementResult (r : Result) : Program :=
  getSession tables "handle settlement result" tenantID fun s =>
    inStatus "handle settlement result" s .settling .settled <|
      if ¬ r.success then failSession s r.error r.errorCode
      else
        advance "handle settlement result"
          { s with settlementTransferID := r.transferID.or s.settlementTransferID } .settled
          (fun s => notified s .settled (.settled s.netAmount s.token) (sessionData s s.netAmount)) (.ret (.ok ()))

/-- `ExpireSession`: a session that has moved on is left alone. -/
def expireSession : Program :=
  getSession tables "expire session" tenantID fun s =>
    if s.status ≠ .pendingPayment then .ret (.ok ())
    else
      advance "expire session" s .expired
        (fun s => notified s .expired .expired (reasonData s "ttl_exceeded")) (.ret (.ok ()))

def cancelSession : Program :=
  getSession tables "cancel session" tenantID fun s =>
    inStatus "cancel session" s .pendingPayment .cancelled <|
      advance "cancel session" s .cancelled
        (fun s => notified s .cancelled .cancelled (reasonData s "user_cancelled")) (.ret (.ok ()))

inductive Call
  | handleTransactionDetected (tx : IncomingTransaction)
  | handleTransactionConfirmed (txHash : String) (confirmations : ℤ)
  | handleCreditResult (r : Result)
  | handleSettlementResult (r : Result)
  | expireSession | cancelSession

def program (c : SessionCall Call) : Program :=
  match c.call with
  | .handleTransactionDetected tx => handleTransactionDetected c.tenantID tx
  | .handleTransactionConfirmed txHash n => handleTransactionConfirmed c.tenantID txHash n
  | .handleCreditResult r => handleCreditResult c.tenantID r
  | .handleSettlementResult r => handleSettlementResult c.tenantID r
  | .expireSession => expireSession c.tenantID
  | .cancelSession => cancelSession c.tenantID

def recorded (db : DB) : List DepositTransaction := db.txs.filter fun t => t.sessionID = db.row.id

end Settla.Deposit
