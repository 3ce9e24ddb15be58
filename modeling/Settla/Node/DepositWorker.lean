import Settla.Core.Deposit
import Settla.Treasury.Recovery

/-!
# Detecting and crediting crypto deposits

A poller records a transfer in the table in which the engine looks for duplicates, without adding its
amount to the session, and writes a `deposit.tx.detected` event in the same transaction. A
`CreditNode` is the treasury with the session: the worker credits the tenant's position and then tells
the engine how that ended.
-/

namespace Settla.Node

open Settla.Core Lib Lib.Threads

/-- The transaction a poller records. It scans only blocks that are this deep. -/
def detectedTx (confirmations : ℤ) (s : DepositSession) (tx : IncomingTransaction) : DepositTransaction where
  sessionID := s.id
  tenantID := s.tenantID
  chain := tx.chain
  txHash := tx.txHash
  fromAddress := tx.fromAddress
  toAddress := tx.toAddress
  tokenContract := tx.tokenContract
  amount := tx.amount
  blockNumber := tx.blockNumber
  blockHash := tx.blockHash
  confirmations := confirmations
  requiredConfirm := confirmations
  confirmed := false

/-- The payload of the poller's event. Its token is the contract. -/
def detectedPayload (s : DepositSession) (tx : IncomingTransaction) : DepositTxDetectedPayload :=
  ⟨s.id, s.tenantID, tx.txHash, tx.chain, tx.tokenContract, tx.amount, tx.blockNumber⟩

/-- `WriteDetectedTx`: the transaction and the entries, nothing else. -/
def writeDetectedTx (dtx : DepositTransaction) (entries : List DepositEntry) (db : Deposit.DB) : Deposit.DB :=
  { db with txs := db.txs ++ [Deposit.tables.insert dtx], outbox := db.outbox ++ entries }

/-- `processIncomingTx`. A lookup that fails is taken for one that finds nothing. -/
def processIncomingTx (confirmations : ℤ) (watched : CryptoChain → String → Bool) (lookup : Reply)
    (tx : IncomingTransaction) (db : Deposit.DB) : Deposit.DB :=
  let dtx := detectedTx confirmations db.row tx
  if lookup = .ok ∧ db.txs.any (Deposit.tables.sameKey dtx) then db
  else if ¬ watched tx.chain tx.tokenContract then db
  else
    writeDetectedTx dtx
      [Deposit.entry db.row (.event .txDetected (.txDetected (detectedPayload db.row tx)))] db

variable (p : DepositTxDetectedPayload)

def incoming : IncomingTransaction where
  chain := p.chain
  txHash := p.txHash
  fromAddress := ""
  toAddress := ""
  tokenContract := p.token
  amount := p.amount
  blockNumber := p.blockNumber
  blockHash := ""

def handleTxDetected : Deposit.Program :=
  Deposit.handleTransactionDetected p.tenantID (incoming p)

def deliverDetected (db : Deposit.DB) (deliveries : List (List SessionAnswer)) :
    Deposit.DB :=
  run (fun db as => ((handleTxDetected p).exec as db).1) db deliveries

/-! ## Credits -/

open Treasury

def creditPosition (p : CreditDepositPayload) : PositionKey where
  tenantID := p.tenantID
  currency := toUpper p.token
  location := "crypto:" ++ toLower p.chain ++ ":" ++ toLower p.token

section

variable (text : Err → String) (p : CreditDepositPayload)

/-- What the worker reports to the engine; nothing after a panic. -/
def creditReport : Treasury.Result → Option Deposit.Result
  | .nil => some { success := true }
  | .err err => some { success := false, error := "treasury credit failed: " ++ text err }
  | .panic => none

/-- The treasury first, then the engine, whose store calls get their answers one by one. -/
def handleCreditResult (w : World) (db : Deposit.DB) (e : CallEnv) (as : List SessionAnswer) : World × Deposit.DB :=
  let (w', r) := w.creditBalance e (creditPosition p) p.netAmount p.sessionID "deposit_session"
  match creditReport text r with
  | some res => (w', ((Deposit.handleCreditResult p.tenantID res).exec as db).1)
  | none => (w', db)

/-- The node: its treasury, and the session. It is not up when its positions could not be
loaded. -/
structure CreditNode where
  up : Bool
  treasury : World
  session : Deposit.DB

inductive CreditStep
  /-- the credit intent is delivered -/
  | deliver (e : CallEnv) (as : List SessionAnswer)
  /-- another call of the engine on the session -/
  | call (c : SessionCall Deposit.Call) (as : List SessionAnswer)
  /-- another operation of the treasury -/
  | operate (e : CallEnv) (kind : ReserveOpType) (k : PositionKey) (amount : Decimal) (reference : UUID) (refType : String)
  | flush (e : FlushEnv)
  /-- the idempotency keys are cleaned up -/
  | cleanup (now : Time)
  /-- the process dies and is started again -/
  | restart (e : LoadEnv)

/-- One step. A node that is down does nothing but start. -/
def CreditNode.step (s : CreditNode) : CreditStep → CreditNode
  | .deliver e as =>
    if s.up then
      let (w, db) := handleCreditResult text p s.treasury s.session e as
      { s with treasury := w, session := db }
    else s
  | .call c as => if s.up then { s with session := ((Deposit.program c).exec as s.session).1 } else s
  | .operate e kind k amount reference refType =>
    if s.up then { s with treasury := (s.treasury.exec e (.op kind k amount reference refType)).1 } else s
  | .flush e => if s.up then { s with treasury := s.treasury.flushOnce e } else s
  | .cleanup now =>
    if s.up then { s with treasury := { s.treasury with mgr := s.treasury.mgr.cleanupIdempotencyMap now } } else s
  | .restart e =>
    match s.treasury.crash.loadPositions e with
    | some w => { s with up := true, treasury := w }
    | none => { s with up := false, treasury := s.treasury.crash }

end

end Settla.Node
