import Mathlib.Data.List.Sort
import Settla.Treasury.Manager

/-!
# Flush and recovery

`World.flushOnce` is a tick of the flush loop, with either store interface; `World.loadPositions` reads the
positions table and replays the uncommitted operations; `World.crash` makes a new manager.
-/

namespace Settla.Treasury

/-! ## The log -/

def ReserveOpType.completes : ReserveOpType → Bool
  | .commit => true
  | .release => true
  | .consume => true
  | .reserve => false
  | .credit => false
  | .debit => false

namespace DB

def completed (db : DB) (reference : UUID) : Bool :=
  db.reserveOps.any fun c => decide (c.reference = reference) && c.opType.completes

def uncommitted (db : DB) : List OpRow :=
  db.reserveOps.filter fun r => decide (r.opType = .reserve) && !db.completed r.reference

/-- `GetUncommittedReserveOps`: `ORDER BY created_at`. -/
def getUncommittedOps (db : DB) : List OpRow :=
  db.uncommitted.insertionSort fun r r' => r.createdAt ≤ r'.createdAt

def cleanupCompletedReserveOps (db : DB) (cutoff : Time) : DB :=
  { db with reserveOps := db.reserveOps.filter fun r =>
      !(decide (r.createdAt < cutoff) && (r.opType.completes || db.completed r.reference)) }

end DB

/-! ## The flush loop -/

/-- `PositionUpdate`, with the key of the position in the dirty set. -/
structure PositionUpdate where
  key : PositionKey
  id : UUID
  (balance locked : Decimal)

/-- The order in which the dirty map is ranged over, whether the store is a `BatchStore`, and how
its row updates end. -/
structure FlushEnv where
  order : List PositionKey
  batch : Bool
  results : List StoreResult

variable (m : Manager)

/-- `dirtyPositions`: the dirty set in the order of the map iteration. -/
def Manager.dirtyPositions (order : List PositionKey) : List PositionKey :=
  (order.filter (· ∈ m.dirtySet)).dedup ++ m.dirtySet.filter (· ∉ order)

/-- The row update of a position. Only the committed part of locked is flushed; what is
reserved comes back from the log. -/
def Manager.positionUpdate (k : PositionKey) : Option PositionUpdate :=
  (m.positions k).map fun ps => ⟨k, ps.id, fromMicro ps.balanceMicro, fromMicro ps.lockedMicro⟩

namespace DB

def write (db : DB) (u : PositionUpdate) (r : StoreResult) : DB :=
  if r.kept then db.updatePosition u.id u.balance u.locked else db

/-- `BatchUpdatePositions` of the store adapter: row by row, up to the first error. -/
def batchUpdatePositions (db : DB) : List PositionUpdate → List StoreResult → DB × Bool
  | [], _ => (db, true)
  | u :: us, rs =>
    let r := rs.headD .ok
    if r = .ok then (db.write u r).batchUpdatePositions us rs.tail else (db.write u r, false)

/-- `flushBatch`: the database, and the positions to retry (all of them on an error). -/
def flushBatch (db : DB) (us : List PositionUpdate) (rs : List StoreResult) : DB × List PositionUpdate :=
  match db.batchUpdatePositions us rs with
  | (db', true) => (db', [])
  | (db', false) => (db', us)

/-- `flushIndividual`: the database, and the positions to retry. -/
def flushIndividual (db : DB) : List PositionUpdate → List StoreResult → DB × List PositionUpdate
  | [], _ => (db, [])
  | u :: us, rs =>
    let r := rs.headD .ok
    let (db', failed) := (db.write u r).flushIndividual us rs.tail
    (db', if r = .ok then failed else u :: failed)

def flushDirtyPositions (db : DB) (us : List PositionUpdate) (e : FlushEnv) : DB × List PositionUpdate :=
  if e.batch then db.flushBatch us e.results else db.flushIndividual us e.results

end DB

variable (w : World)

/-- `flushOnce`. Draining the pending-ops channel has no effect on the state. -/
def World.flushOnce (e : FlushEnv) : World :=
  let dirty := w.mgr.dirtyPositions e.order
  if dirty = [] then w
  else
    let (db, failed) := w.db.flushDirtyPositions (dirty.filterMap w.mgr.positionUpdate) e
    let failures := if failed = [] then 0 else w.mgr.consecutiveFlushFailures + 1
    { mgr := { w.mgr with
        dirtySet := failed.map (·.key)
        consecutiveFlushFailures := failures
        failedPositionIDs := failed.map (·.id) }
      db := db }

def idempotencyMaxAge : Time := 10 * minute

/-- On every 60th tick of the flush loop the keys older than `idempotencyMaxAge` go, and those older
than `forcedCleanupMaxAge` where a shard is still over its share of the size limit. -/
def Manager.cleanupIdempotencyMap (now : Time) : Manager :=
  { m with idempotencyShards := fun s =>
      let items := (m.idempotencyShards s).filter fun it => !decide (it.2 < now - idempotencyMaxAge)
      if maxIdempotencyMapSize / 16 < items.length then
        items.filter fun it => !decide (it.2 < now - forcedCleanupMaxAge)
      else items }

/-! ## A running manager -/

/-- Calls, the ticks of the flush loop, and the cleanup of the idempotency map that comes with some
of them. -/
inductive Activity
  | call (e : CallEnv) (c : Call)
  | flush (e : FlushEnv)
  | cleanup (now : Time)

def World.next : Activity → World
  | .call e c => (w.exec e c).1
  | .flush e => w.flushOnce e
  | .cleanup now => { w with mgr := w.mgr.cleanupIdempotencyMap now }

/-! ## Loading -/

/-- Whether the positions and the uncommitted operations could be read, and the outside of each
replayed call. -/
structure LoadEnv where
  (pages ops : Bool)
  replay : OpRow → CallEnv

def Manager.cleared : Manager :=
  { m with positions := fun _ => none, dirtySet := [], idempotencyShards := fun _ => [] }

/-- `addPosition`; `none` where `toMicro` panics. -/
def Manager.addPosition (row : PositionRow) : Option Manager := do
  let balance ← toMicro row.balance
  let locked ← toMicro row.locked
  pure (m.setPosition row.key ⟨row.id, row.minBalance, balance, locked, 0⟩)

namespace World

def replayOp (e : CallEnv) (op : OpRow) : World × Result :=
  w.exec e (.op op.opType op.key op.amount op.reference "recovery")

/-- The replay loop: an operation that fails is logged and skipped. -/
def replayOps (e : OpRow → CallEnv) (ops : List OpRow) : World :=
  ops.foldl (fun w op => (w.replayOp (e op) op).1) w

/-- Replay what `GetUncommittedOps` returns, with the log switched off. Failing to read it is not an
error. -/
def replayUncommitted (e : LoadEnv) : World :=
  let w₁ : World := { w with mgr := { w.mgr with replaying := true } }
  let w₂ := if e.ops then w₁.replayOps e.replay w.db.getUncommittedOps else w₁
  { w₂ with mgr := { w₂.mgr with replaying := false } }

/-- `LoadPositions`; `none` where it returns an error or panics. -/
def loadPositions (e : LoadEnv) : Option World := do
  guard e.pages
  let loaded ← w.db.positions.foldlM Manager.addPosition w.mgr.cleared
  pure (replayUncommitted ⟨loaded, w.db⟩ e)

/-- The process dies: only the database is left, and `NewManager` starts from the same
options. -/
def crash : World where
  mgr := { newManager with
    syncThresholds := w.mgr.syncThresholds
    syncThresholdDefault := w.mgr.syncThresholdDefault }
  db := w.db

end World

end Settla.Treasury
