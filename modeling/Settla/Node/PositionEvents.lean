import Settla.Node.Rebalance
import Settla.Node.TransferWorker

/-!
# The results of position intents

The treasury worker publishes what became of an intent, and the transfer worker consumes it. No component
calls `HandleCreditResult` or `HandleDebitResult` of the position engine.
-/

namespace Settla.Rebalance

open Treasury Position Settla.Core Node

inductive ResultType
  | positionCredited | positionDebited
  | treasuryFailed (error : String)

/-- The event `publishResult` publishes; its `transfer_id` is the ID of the position transaction. -/
structure ResultEvent where
  type : ResultType
  (tenantID transferID : UUID)

/-- `TransferWorker.handleEvent`: only `treasury.failed` has a case of its own. -/
def ResultEvent.handle (s : Store) (l : Lookups) (ev : ResultEvent) : Store × Bool :=
  match ev.type with
  | .treasuryFailed error => handleEvent s l ⟨.treasuryFailed, ev.tenantID, ev.transferID, some error, none⟩
  | _ => (s, true)

/-- The position engine and the workers, with the events that have not been acknowledged. -/
structure Office where
  desk : Desk
  transfers : Store
  events : List ResultEvent

/-- `handlePositionCredit` and `handlePositionDebit` up to the event; `error` is the text of an error. -/
def resultType (w : World) (e : CallEnv) (error : String) (i : PositionIntent) : Option ResultType :=
  match (w.exec64 e (callOf i)).2, i.type with
  | .nil, .topUp => some .positionCredited
  | .nil, .withdrawal => some .positionDebited
  | .err _, _ => some (.treasuryFailed error)
  | .panic, _ => none

def request : TxType → Option Position → UUID → UUID → Request →
    Except PositionErr (PositionTransaction × PositionIntent)
  | .topUp => requestTopUp
  | .withdrawal => requestWithdrawal

inductive OfficeStep
  | request (type : TxType) (a : Answer) (tenantID : UUID) (req : Request)
  | deliver (a : Answer) (error : String) (reference : UUID)
  | event (l : Lookups) (n : ℕ)
  | activity (act : Activity)

def Office.step (o : Office) : OfficeStep → Office
  | .request type a tenantID req =>
    match request type (o.desk.getPosition ⟨tenantID, req.currency, req.location⟩) a.id tenantID req with
    | .error _ => o
    | .ok (tx, intent) =>
      if a.reply.applied then { o with desk := { o.desk with db := o.desk.db.createWithOutbox tx intent } } else o
  | .deliver a error reference =>
    let published : Option ResultEvent := do
      let i ← o.desk.db.outbox.find? (·.reference = reference)
      let type ← resultType o.desk.treasury a.call error i
      return ⟨type, i.tenantID, i.reference⟩
    { o with desk := o.desk.deliver a reference
             events := if a.reply.applied then o.events ++ published.toList else o.events }
  | .event l n =>
    match o.events[n]? with
    | none => o
    | some ev =>
      let (transfers, acked) := ev.handle o.transfers l
      { o with transfers, events := if acked then o.events.eraseIdx n else o.events }
  | .activity act => { o with desk := { o.desk with treasury := perform o.desk.treasury {} act } }

end Settla.Rebalance
