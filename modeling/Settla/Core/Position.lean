import Settla.Lib.Threads
import Settla.Treasury.Manager

/-!
# The position engine

A top-up or a withdrawal is a row of `position_transactions` with an intent for the treasury worker.
`RequestWithdrawal` looks at what is available, but reserves nothing.
-/

namespace Settla

open Treasury

/-- `domain.Position`. -/
structure Position where
  (id tenantID : UUID)
  currency : Currency
  location : String
  (balance locked minBalance targetBalance : Decimal)

namespace Position

def available (p : Position) : Decimal :=
  let avail := p.balance - p.locked
  if avail < 0 then 0 else avail

def isAboveMinimum (p : Position) : Bool := p.minBalance ≤ p.balance

/-- `PositionState.snapshot`: what is reserved counts as locked. -/
def snapshot (k : PositionKey) (targetBalance : Decimal) (ps : PositionState) : Position where
  id := ps.id
  tenantID := k.tenantID
  currency := k.currency
  location := k.location
  balance := fromMicro ps.balanceMicro
  locked := fromMicro (ps.lockedMicro + ps.reservedMicro)
  minBalance := ps.minBalance
  targetBalance := targetBalance

inductive TxType
  | topUp | withdrawal

inductive TxStatus
  | processing | completed | failed
  deriving DecidableEq

structure PositionTransaction where
  (id tenantID : UUID)
  type : TxType
  currency : Currency
  location : String
  amount : Decimal
  status : TxStatus
  (method destination failureReason : String)
  version : ℕ

/-- `PositionCreditPayload` and `PositionDebitPayload`; only a debit has a destination. -/
structure PositionIntent where
  type : TxType
  tenantID : UUID
  currency : Currency
  amount : Decimal
  location : String
  reference : UUID
  (refType destination : String)

structure Request where
  currency : Currency
  location : String
  amount : Decimal
  method : String
  destination : String := ""

inductive PositionErr
  /-- "settla-position: top-up (withdrawal) amount must be positive" -/
  | notPositive (type : TxType)
  /-- "settla-position: withdrawal destination is required" -/
  | destinationRequired
  /-- "settla-position: position not found for ... at ..." -/
  | positionNotFound (currency : Currency) (location : String)
  /-- `ErrInsufficientFunds` -/
  | insufficientFunds (currency : Currency) (location : String)
  /-- "settla-position: loading transaction ..." -/
  | loading (txID : UUID)

def newTransaction (type : TxType) (id tenantID : UUID) (req : Request) : PositionTransaction × PositionIntent :=
  ({ id, tenantID, type, currency := req.currency, location := req.location, amount := req.amount,
     status := .processing, method := req.method, destination := req.destination, failureReason := "", version := 1 },
   { type, tenantID, currency := req.currency, amount := req.amount, location := req.location, reference := id,
     refType := "position_transaction", destination := req.destination })

/-- `RequestTopUp` up to the store call, given what `GetPosition` finds. -/
def requestTopUp (position : Option Position) (id tenantID : UUID) (req : Request) :
    Except PositionErr (PositionTransaction × PositionIntent) :=
  if ¬ 0 < req.amount then .error (.notPositive .topUp)
  else
    match position with
    | none => .error (.positionNotFound req.currency req.location)
    | some _ => .ok (newTransaction .topUp id tenantID req)

def requestWithdrawal (position : Option Position) (id tenantID : UUID) (req : Request) :
    Except PositionErr (PositionTransaction × PositionIntent) :=
  if ¬ 0 < req.amount then .error (.notPositive .withdrawal)
  else if req.destination = "" then .error .destinationRequired
  else
    match position with
    | none => .error (.positionNotFound req.currency req.location)
    | some pos =>
      if pos.available < req.amount then .error (.insufficientFunds req.currency req.location)
      else .ok (newTransaction .withdrawal id tenantID req)

/-- The tables of the engine: the transactions, and the intents that have not been
acknowledged. -/
structure PositionDB where
  txs : List PositionTransaction
  outbox : List PositionIntent

/-- `CreateWithOutbox`; the amount goes through a `NUMERIC(28,8)` column, the payload does not. -/
def PositionDB.createWithOutbox (db : PositionDB) (tx : PositionTransaction) (intent : PositionIntent) : PositionDB where
  txs := db.txs ++ [{ tx with amount := numeric8 tx.amount }]
  outbox := db.outbox ++ [intent]

def PositionDB.updateStatus (db : PositionDB) (id tenantID : UUID) (status : TxStatus) (failureReason : String) : PositionDB :=
  { db with txs := db.txs.map fun tx =>
      if tx.id = id ∧ tx.tenantID = tenantID then { tx with status, failureReason, version := tx.version + 1 } else tx }

def TxType.defaultReason : TxType → String
  | .topUp => "credit operation failed"
  | .withdrawal => "debit operation failed"

def handleResult (type : TxType) (db : PositionDB) (tenantID txID : UUID) (success : Bool) (reason : String) :
    Except PositionErr PositionDB :=
  match db.txs.find? fun tx => tx.id = txID ∧ tx.tenantID = tenantID with
  | none => .error (.loading txID)
  | some tx =>
    if tx.status ≠ .processing then .ok db
    else if success then .ok (db.updateStatus txID tenantID .completed "")
    else .ok (db.updateStatus txID tenantID .failed (if reason = "" then type.defaultReason else reason))

def handleCreditResult := handleResult .topUp

def handleDebitResult := handleResult .withdrawal

end Position

end Settla
