import Settla.Domain.Fees
import Settla.Lib.Threads

/-!
# The store of a deposit session

One row per session with a version and the amount received, and one per recorded payment. `recordTx`
adds the amount of a payment to the row and leaves the version as it is; `transitionWithOutbox`
writes the session of the engine if the row still has the version before it.
-/

namespace Settla.Core

open Lib.Threads

/-- How a kind of session `S` and its payments `T` are stored. -/
structure SessionTables (S T : Type) where
  tenantID : S → UUID
  version : S → ℕ
  /-- two payments have the key by which duplicates are found -/
  sameKey : T → T → Bool
  /-- the row inserted for a payment -/
  insert : T → T
  /-- the row with the amount of a payment added -/
  accumulate : T → S → S
  /-- the row after the columns of a session are written to it -/
  update : S → S → S

/-- The row of one session, the payments of all sessions, and the outbox. -/
structure SessionDB (S T E : Type) where
  row : S
  txs : List T
  outbox : List E
  deriving DecidableEq

structure SessionAnswer where
  reply : Reply := .ok
  /-- the fees found by `getTenant` -/
  schedule : FeeSchedule := {}

/-- The store calls, with the session as the method knows it. -/
inductive SessionStep (S T E : Type)
  | getSession
  | findTx (s : S) (t : T)
  | recordTx (s : S) (t : T)
  | getTenant (s : S)
  | transition (s : S) (entries : List E)

/-- The errors of the engine methods, each with the step it names in its text. -/
inductive SessionErr
  | loadingSession (step : String)
  /-- `ErrInvalidTransition` -/
  | invalidTransition (step src dst : String)
  /-- "recording tx and accumulating" -/
  | recording (step : String)
  | loadingTenant (step : String)
  /-- `ErrOptimisticLock` -/
  | concurrentModification (step : String)
  | persisting (step : String)
  deriving DecidableEq

abbrev SessionResult := Except SessionErr Unit

abbrev SessionProg (S T E : Type) := Prog (SessionDB S T E) SessionAnswer (SessionStep S T E) SessionResult

variable {S T E : Type}

/-- `GetSession`: a session of another tenant is not found. -/
def getSession (tb : SessionTables S T) (step : String) (tenantID : UUID) (k : S → SessionProg S T E) :
    SessionProg S T E :=
  .act .getSession (fun _ db => db) fun a db =>
    if a.reply = .ok ∧ tb.tenantID db.row = tenantID then k db.row else .ret (.error (.loadingSession step))

/-- `GetDepositTxByHash`, `GetBankDepositTxByRef`. A lookup that fails is taken for one that finds
nothing. -/
def findTx (tb : SessionTables S T) (s : S) (t : T) (k : Bool → SessionProg S T E) : SessionProg S T E :=
  .act (.findTx s t) (fun _ db => db) fun a db => k (a.reply = .ok && db.txs.any (tb.sameKey t))

/-- `RecordDepositTx`, `RecordBankDepositTx`. -/
def recordTx (tb : SessionTables S T) (step : String) (s : S) (t : T) (k : SessionProg S T E) :
    SessionProg S T E :=
  .act (.recordTx s t)
    (fun a db => if a.reply.applied then { db with row := tb.accumulate t db.row, txs := db.txs ++ [tb.insert t] } else db)
    fun a _ => if a.reply = .ok then k else .ret (.error (.recording step))

def getTenant (step : String) (s : S) (k : FeeSchedule → SessionProg S T E) : SessionProg S T E :=
  .act (.getTenant s) (fun _ db => db) fun a _ =>
    if a.reply = .ok then k a.schedule else .ret (.error (.loadingTenant step))

/-- `TransitionWithOutbox`: the engine has already counted the version up. -/
def transitionWithOutbox (tb : SessionTables S T) (step : String) (s : S) (entries : List E)
    (k : SessionProg S T E) : SessionProg S T E :=
  .act (.transition s entries)
    (fun a db =>
      if a.reply.applied && tb.version db.row + 1 = tb.version s then
        { db with row := tb.update db.row s, outbox := db.outbox ++ entries }
      else db)
    fun a db =>
      if tb.version db.row + 1 ≠ tb.version s then .ret (.error (.concurrentModification step))
      else if a.reply = .ok then k
      else .ret (.error (.persisting step))

structure SessionCall (C : Type) where
  tenantID : UUID
  call : C

end Settla.Core
