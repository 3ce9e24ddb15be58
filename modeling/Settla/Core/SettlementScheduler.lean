import Mathlib.Data.List.Sort
import Settla.Core.Settlement

/-!
# The settlement scheduler

A tick settles yesterday for every active tenant, page by page and with many workers, and then looks
for overdue settlements. There may be several instances, and an instance may stop at any point.
-/

namespace Settla.Settlement

open Lib Lib.Keyed

def defaultBatchSize : ℕ := 500

/-- A tick of an instance: what is left of its tenants, and where the next page starts. -/
structure Tick where
  (now periodStart periodEnd : Time)
  afterID : UUID
  (more failed : Bool)
  queue : List UUID

structure World where
  tenants : List Tenant
  rows : List SettlementRow
  ticks : ℕ → Option Tick

variable (tenants : List Tenant)

def activeTenantIDs : List UUID :=
  (tenants.filter fun t => t.settlementModel = .netSettlement ∧ t.active).map (·.id)

def listActiveTenantIDs (limit : ℕ) (afterID : UUID) : List UUID :=
  (((activeTenantIDs tenants).filter fun id => afterID.toNat < id.toNat).insertionSort
    fun a b => a.toNat ≤ b.toNat).take limit

/-- The start of a tick: yesterday, from midnight to midnight. Without tenants there is nothing
to list. -/
def newTick (now : Time) : Tick where
  now := now
  periodStart := now - now % day - day
  periodEnd := now - now % day
  afterID := UUID.nil
  more := ¬ (activeTenantIDs tenants).isEmpty
  failed := false
  queue := []

def Tick.page (t : Tick) (ids : List UUID) : Tick :=
  { t with
    queue := t.queue ++ ids
    more := ¬ ids.length < defaultBatchSize
    afterID := ids.getLastD t.afterID }

/-! ## Overdue settlements -/

inductive Action
  | reminder | warning | suspend
  deriving DecidableEq

structure OverdueAction where
  (settlementID tenantID : UUID)
  tenantName : String
  action : Action
  daysPastDue : ℤ

/-- The switch of `checkOverdue`, with the thresholds. -/
def overdueAction (overdue : Time) : Option Action :=
  if 7 * day ≤ overdue then some .suspend
  else if 5 * day ≤ overdue then some .warning
  else if 3 * day ≤ overdue then some .reminder
  else none

def checkOverdue (now : Time) (s : NetSettlement) : Option OverdueAction := do
  let dueDate ← s.dueDate
  let overdue := now - dueDate
  if overdue ≤ 0 then none
  else
    let action ← overdueAction overdue
    return ⟨s.id, s.tenantID, s.tenantName, action, overdue / day⟩

def listPendingSettlements (rows : List SettlementRow) : List NetSettlement :=
  (rows.filter fun r => r.settlement.status = .pending ∨ r.settlement.status = .overdue).map (·.settlement)

def updateSettlementStatus (rows : List SettlementRow) (id : UUID) (status : SettlementStatus) (now : Time) :
    List SettlementRow :=
  rows.map fun r =>
    if r.settlement.id = id then
      { r with
        settlement := { r.settlement with status := status }
        settledAt := if status = .settled then some now else r.settledAt }
    else r

/-- The updates of `checkOverdue`; those that fail are only logged. -/
def markOverdue (fails : UUID → Bool) (now : Time) (rows : List SettlementRow) : List SettlementRow :=
  ((listPendingSettlements rows).filterMap (checkOverdue now)).foldl (fun rows a =>
    if a.action = .suspend ∧ ¬ fails a.settlementID then updateSettlementStatus rows a.settlementID .overdue now
    else rows) rows

/-! ## Steps -/

/-- What the stores answer a calculation, the ID it draws and the clock of the database. -/
structure Answers where
  tenantLoaded : Bool
  aggregates : Option (List CorridorAggregate)
  order : Reading (Currency × CurrencyNet)
  id : UUID
  now : Time
  reply : Threads.Reply

inductive Event
  /-- the table of tenants changes -/
  | tenants (tenants : List Tenant)
  /-- an instance begins a tick -/
  | tick (i : ℕ) (now : Time)
  /-- its producer reads a page, or fails to -/
  | page (i : ℕ) (fails : Bool)
  /-- one of its workers settles a tenant of the queue -/
  | process (i j : ℕ) (answers : Answers)
  /-- all tenants are done: the overdue settlements, unless a page was missing -/
  | finish (i : ℕ) (fails : UUID → Bool)
  /-- the instance stops -/
  | stop (i : ℕ)
  /-- `CalculateNetSettlement` is called from elsewhere -/
  | calculate (c : Calculation) (now : Time) (reply : Threads.Reply)
  /-- the status of a settlement is changed by an operator -/
  | updateStatus (id : UUID) (status : SettlementStatus) (now : Time)

def processOneTenant (t : Tick) (tenantID : UUID) (a : Answers) : Calculation where
  tenantID := tenantID
  periodStart := t.periodStart
  periodEnd := t.periodEnd
  tenant := if a.tenantLoaded then tenants.find? (·.id = tenantID) else none
  aggregates := a.aggregates
  order := a.order
  id := a.id

def World.setTick (w : World) (i : ℕ) (t : Option Tick) : World := { w with ticks := Function.update w.ticks i t }

def World.step (w : World) : Event → World
  | .tenants tenants => { w with tenants }
  | .tick i now =>
    match w.ticks i with
    | some _ => w
    | none => w.setTick i (some (newTick w.tenants now))
  | .page i fails =>
    match w.ticks i with
    | none => w
    | some t =>
      if ¬ t.more then w
      else if fails then w.setTick i (some { t with more := false, failed := true })
      else w.setTick i (some (t.page (listActiveTenantIDs w.tenants defaultBatchSize t.afterID)))
  | .process i j a =>
    match w.ticks i with
    | none => w
    | some t =>
      match t.queue[j]? with
      | none => w
      | some tenantID =>
        { w.setTick i (some { t with queue := t.queue.eraseIdx j }) with
          rows := (calculateNetSettlement w.rows (processOneTenant w.tenants t tenantID a) a.now a.reply).2 }
  | .finish i fails =>
    match w.ticks i with
    | none => w
    | some t =>
      if t.more ∨ t.queue ≠ [] then w
      else { w.setTick i none with rows := if t.failed then w.rows else markOverdue fails t.now w.rows }
  | .stop i => w.setTick i none
  | .calculate c now reply => { w with rows := (calculateNetSettlement w.rows c now reply).2 }
  | .updateStatus id status now => { w with rows := updateSettlementStatus w.rows id status now }

/-- The calculation a step makes, if any, with the clock of the database and the reply. -/
def World.call (w : World) : Event → Option (Calculation × Time × Threads.Reply)
  | .process i j a =>
    match w.ticks i with
    | none => none
    | some t => (t.queue[j]?).map fun tenantID => (processOneTenant w.tenants t tenantID a, a.now, a.reply)
  | .calculate c now reply => some (c, now, reply)
  | _ => none

end Settla.Settlement
