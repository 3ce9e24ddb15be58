import Settla.Domain.Types

/-!
# The treasury manager

A `World` is the position counters of `treasury/manager.go` with the two tables behind them; an
operation goes from a world and the outcome of its store calls (`CallEnv`) to the next world.

Six operations run through the same stages (`runOp`): argument checks, the idempotency key, the position
lookup, a guard on the counters, the counter update, the write-ahead log and a synchronous flush of large
amounts. An `OpSpec` says what one of them checks, changes and rolls back.
-/

namespace Settla.Treasury

open Lib

/-- `ReserveOpType`: the kind of an operation, in its idempotency key and in the log. -/
inductive ReserveOpType
  | reserve | release | commit | consume | credit | debit
  deriving DecidableEq, Repr

def ReserveOpType.string : ReserveOpType → String
  | .reserve => "reserve"
  | .release => "release"
  | .commit => "commit"
  | .consume => "consume"
  | .credit => "credit"
  | .debit => "debit"

structure PositionKey where
  tenantID : UUID
  currency : Currency
  location : String
  deriving DecidableEq

/-- `PositionState`: the counters of one position, in micro-units. -/
structure PositionState where
  id : UUID
  minBalance : Decimal
  (balanceMicro lockedMicro reservedMicro : ℤ)
  deriving DecidableEq

/-- What `Reserve` and `DebitBalance` may take: balance minus locked minus reserved. -/
def PositionState.available (ps : PositionState) : ℤ :=
  ps.balanceMicro - ps.lockedMicro - ps.reservedMicro

/-! ## Micro-units -/

def microScale : ℤ := 1000000

def maxMicroValue : ℤ := 9000000000000000000

def microInRange (d : Decimal) : Bool :=
  let scaled := d * microScale
  !(decide (scaled > maxMicroValue) || decide (scaled < -maxMicroValue))

/-- `toMicro`: whole micro-units, toward zero; `none` where the source panics. -/
def toMicro (d : Decimal) : Option ℤ :=
  if microInRange d then some (intPart (d * microScale)) else none

/-- `fromMicro`. Dividing by `10^6` needs six places, well inside the sixteen kept. -/
def fromMicro (v : ℤ) : Decimal := v / microScale

/-! ## The database -/

structure PositionRow where
  id : UUID
  key : PositionKey
  (balance locked minBalance : Decimal)
  deriving DecidableEq

structure OpRow where
  key : PositionKey
  amount : Decimal
  reference : UUID
  opType : ReserveOpType
  createdAt : Time
  deriving DecidableEq

structure DB where
  positions : List PositionRow
  reserveOps : List OpRow

/-- How a store call ended: acknowledged, failed, or reported as failed although the write was kept. -/
inductive StoreResult
  | ok | err | errKept
  deriving DecidableEq

def StoreResult.kept : StoreResult → Bool
  | .ok => true
  | .err => false
  | .errKept => true

/-- `UpdatePositionBalances`: the columns round to eight places. -/
def DB.updatePosition (db : DB) (id : UUID) (balance locked : Decimal) : DB :=
  { db with positions := db.positions.map fun r =>
      if r.id = id then { r with balance := numeric8 balance, locked := numeric8 locked } else r }

/-- `InsertReserveOp`. The row id is a fresh UUID, so `ON CONFLICT` never applies. -/
def DB.insertReserveOp (db : DB) (row : OpRow) : DB :=
  { db with reserveOps := db.reserveOps ++ [{ row with amount := numeric8 row.amount }] }

/-! ## The manager -/

structure IdempotencyKey where
  reference : UUID
  op : ReserveOpType
  deriving DecidableEq

def IdempotencyKey.string (key : IdempotencyKey) : String :=
  key.reference.string ++ ":" ++ key.op.string

def idempotencyShardFor (key : IdempotencyKey) : Fin 16 :=
  Fin.ofNat 16 (fnv32a (utf8 key.string))

/-- `PositionEventType`, for the operations that queue an event. -/
inductive PositionEventType
  | credit | debit | consume
  deriving DecidableEq

structure PositionEvent where
  (positionID tenantID : UUID)
  eventType : PositionEventType
  (amount balanceAfter lockedAfter : Decimal)
  referenceID : UUID
  referenceType : String
  recordedAt : Time
  deriving DecidableEq

/-- `Manager`. The shards map a key to the time it was claimed. -/
structure Manager where
  positions : PositionKey → Option PositionState
  dirtySet : List PositionKey
  idempotencyShards : Fin 16 → List (IdempotencyKey × Time)
  syncThresholds : Currency → Option Decimal
  syncThresholdDefault : Decimal
  pendingEvents : List PositionEvent
  alerts : List PositionKey
  replaying : Bool
  consecutiveFlushFailures : ℕ
  failedPositionIDs : List UUID

def defaultSyncThresholds : Currency → Option Decimal
  | "USD" => some 100000
  | "USDT" => some 100000
  | "USDC" => some 100000
  | "GBP" => some 80000
  | "EUR" => some 92000
  | "NGN" => some 160000000
  | "GHS" => some 1500000
  | "KES" => some 13000000
  | _ => none

def newManager : Manager where
  positions := fun _ => none
  dirtySet := []
  idempotencyShards := fun _ => []
  syncThresholds := defaultSyncThresholds
  syncThresholdDefault := 100000
  pendingEvents := []
  alerts := []
  replaying := false
  consecutiveFlushFailures := 0
  failedPositionIDs := []

structure World where
  mgr : Manager
  db : DB

/-- What an operation meets outside the manager: the clock, the log write, whether the channel took
the entry, and a synchronous flush. -/
structure CallEnv where
  now : Time
  wal : StoreResult
  queued : Bool
  flush : StoreResult

inductive Err
  /-- `ErrReservationFailed` with its message. -/
  | reservationFailed (msg : String)
  /-- "settla-treasury: credit (debit) amount must be positive" -/
  | notPositive (op : ReserveOpType)
  /-- "settla-treasury: amount ... exceeds maximum position size" -/
  | exceedsMaximum (amount : Decimal)
  /-- "settla-treasury: rejecting ... — DB flush failing"; `Reserve` also names the positions. -/
  | flushFailing (op : ReserveOpType) (failures : ℕ) (failing : List UUID)
  /-- `ErrInsufficientFunds`. -/
  | insufficientFunds (currency : Currency) (location : String)
  /-- "settla-treasury: insufficient reserved amount (for consume): have ..., need ..." -/
  | insufficientReserved (op : ReserveOpType) (got need : ℤ) (reference : UUID)
  /-- "settla-treasury: insufficient balance for consume: have ..., need ..." -/
  | insufficientBalance (got need : ℤ) (reference : UUID)
  /-- "settla-treasury: WAL write failed for ..." -/
  | walWriteFailed (op : ReserveOpType) (reference : UUID)
  /-- "settla-treasury: pending ops channel full, cannot queue ..." -/
  | channelFull (op : ReserveOpType) (reference : UUID)
  /-- "settla-treasury: rejecting large reserve (credit) ... — sync flush failed" -/
  | syncFlushFailed (op : ReserveOpType) (amount : Decimal) (position : UUID)
  /-- "settla-treasury: cannot set balance to ... — below committed amount ..." -/
  | belowCommitted (newBalance : Decimal) (locked reserved : ℤ)
  deriving DecidableEq

inductive Result
  | nil
  | err (e : Err)
  | panic
  deriving DecidableEq

namespace Manager

variable (m : Manager)

def held (key : IdempotencyKey) : Bool :=
  (m.idempotencyShards (idempotencyShardFor key)).any (·.1 = key)

def maxIdempotencyMapSize : ℕ := 500000

def forcedCleanupMaxAge : Time := 2 * minute

/-- The forced cleanup of a shard: once it holds its share of the size limit, the keys
older than `forcedCleanupMaxAge` go. -/
def forcedCleanup (now : Time) (items : List (IdempotencyKey × Time)) : List (IdempotencyKey × Time) :=
  if maxIdempotencyMapSize / 16 ≤ items.length then
    items.filter fun it => !decide (it.2 < now - forcedCleanupMaxAge)
  else items

/-- The claiming branch of `tryAcquireIdempotency`: clean the shard up if it is full,
then add the key. -/
def acquire (now : Time) (key : IdempotencyKey) : Manager :=
  let s := idempotencyShardFor key
  let items := forcedCleanup now (m.idempotencyShards s)
  { m with idempotencyShards := Function.update m.idempotencyShards s ((key, now) :: items) }

def rollbackIdempotency (key : IdempotencyKey) : Manager :=
  let s := idempotencyShardFor key
  let items := (m.idempotencyShards s).filter fun it => !decide (it.1 = key)
  { m with idempotencyShards := Function.update m.idempotencyShards s items }

def syncThresholdFor (c : Currency) : Decimal :=
  (m.syncThresholds c).getD m.syncThresholdDefault

/-- Whether an amount is large enough for a synchronous flush. -/
def isLarge (c : Currency) (amount : Decimal) : Bool :=
  let threshold := m.syncThresholdFor c
  threshold != 0 && decide (threshold ≤ amount)

def markDirty (k : PositionKey) : Manager :=
  { m with dirtySet := if k ∈ m.dirtySet then m.dirtySet else m.dirtySet ++ [k] }

def setPosition (k : PositionKey) (ps : PositionState) : Manager :=
  { m with positions := Function.update m.positions k (some ps) }

def pendingEventsCap : ℕ := 100000

/-- `queueEvent`: drop the event when the channel is full. -/
def queueEvent (now : Time) (k : PositionKey) (ps : PositionState)
    (ev : PositionEventType) (amount : Decimal) (reference : UUID) (refType : String) : Manager :=
  if m.pendingEvents.length < pendingEventsCap then
    { m with pendingEvents := m.pendingEvents ++ [{
        positionID := ps.id
        tenantID := k.tenantID
        eventType := ev
        amount := amount
        balanceAfter := fromMicro ps.balanceMicro
        lockedAfter := fromMicro (ps.lockedMicro + ps.reservedMicro)
        referenceID := reference
        referenceType := refType
        recordedAt := now }] }
  else m

def checkMinimum (k : PositionKey) (ps : PositionState) : Manager :=
  if fromMicro ps.available < ps.minBalance ∧ ps.minBalance ≠ 0 then
    { m with alerts := m.alerts ++ [k] }
  else m

/-- The balance of a position in memory. -/
def balanceAt (k : PositionKey) : Option ℤ := (m.positions k).map (·.balanceMicro)

def maxFlushFailuresBeforeReject : ℕ := 3

end Manager

namespace World

/-- `logOp`: the log row first, then the pending-ops channel. During replay neither. -/
def logOp (w : World) (e : CallEnv) (k : PositionKey) (amount : Decimal) (reference : UUID)
    (op : ReserveOpType) : World × Option Err :=
  if w.mgr.replaying then (w, none)
  else
    let row : OpRow := ⟨k, amount, reference, op, e.now⟩
    -- an error does not say whether the row was kept
    let w' : World := if e.wal.kept then { w with db := w.db.insertReserveOp row } else w
    if e.wal ≠ .ok then (w', some (.walWriteFailed op reference))
    else if e.queued then (w', none)
    -- the row stays in the log although the operation fails
    else (w', some (.channelFull op reference))

/-- `syncFlushPosition`: write balance and locked, and take the position off the
dirty set if the write is acknowledged. -/
def syncFlushPosition (w : World) (e : CallEnv) (k : PositionKey) (ps : PositionState) : World × Bool :=
  let w' : World := if e.flush.kept then
      { w with db := w.db.updatePosition ps.id (fromMicro ps.balanceMicro) (fromMicro ps.lockedMicro) }
    else w
  if e.flush = .ok then
    ({ w' with mgr := { w'.mgr with dirtySet := w'.mgr.dirtySet.filter (· ≠ k) } }, true)
  else (w', false)

end World

/-! ## The operations -/

/-- How many times the amount an operation adds to each counter. -/
structure Effect where
  (balance locked reserved : ℤ)

def Effect.apply (f : Effect) (a : ℤ) (ps : PositionState) : PositionState :=
  { ps with
    balanceMicro := ps.balanceMicro + f.balance * a
    lockedMicro := ps.lockedMicro + f.locked * a
    reservedMicro := ps.reservedMicro + f.reserved * a }

/-- What an operation does about large amounts once it is logged. -/
inductive SyncMode
  /-- no synchronous flush -/
  | none
  /-- flush, and undo the operation if the flush fails -/
  | rollback
  /-- flush, and only log a failure -/
  | logOnly
  deriving DecidableEq

/-- What distinguishes one operation from the others. -/
structure OpSpec where
  op : ReserveOpType
  notPositive : Err
  checksRange : Bool
  breaker : Option (ℕ → List UUID → Err)
  guard : PositionKey → PositionState → ℤ → UUID → Option Err
  effect : Effect
  event : Option PositionEventType
  sync : SyncMode
  alert : Bool

def needAvailable (k : PositionKey) (ps : PositionState) (a : ℤ) (_ : UUID) : Option Err :=
  if ps.available < a then some (.insufficientFunds k.currency k.location) else none

def reserveSpec : OpSpec where
  op := .reserve
  notPositive := .reservationFailed "amount must be positive"
  checksRange := true
  breaker := some fun n ids => .flushFailing .reserve n ids
  guard := needAvailable
  effect := ⟨0, 0, 1⟩
  event := none
  sync := .rollback
  alert := true

def releaseSpec : OpSpec where
  op := .release
  notPositive := .reservationFailed "amount must be positive"
  checksRange := true
  breaker := none
  guard := fun _ ps a _ =>
    if ps.reservedMicro < a then some (.reservationFailed "release amount exceeds reserved") else none
  effect := ⟨0, 0, -1⟩
  event := none
  sync := .none
  alert := false

/-- `CommitReservation` is the one operation that does not check the range. -/
def commitSpec : OpSpec where
  op := .commit
  notPositive := .reservationFailed "amount must be positive"
  checksRange := false
  breaker := none
  guard := fun _ ps a ref =>
    if ps.reservedMicro < a then some (.insufficientReserved .commit ps.reservedMicro a ref) else none
  effect := ⟨0, 1, -1⟩
  event := none
  sync := .none
  alert := false

def consumeSpec : OpSpec where
  op := .consume
  notPositive := .reservationFailed "consume amount must be positive"
  checksRange := true
  breaker := none
  guard := fun _ ps a ref =>
    if ps.reservedMicro < a then some (.insufficientReserved .consume ps.reservedMicro a ref)
    else if ps.balanceMicro < a then some (.insufficientBalance ps.balanceMicro a ref)
    else none
  effect := ⟨-1, 0, -1⟩
  event := some .consume
  sync := .logOnly
  alert := false

def creditSpec : OpSpec where
  op := .credit
  notPositive := .notPositive .credit
  checksRange := true
  breaker := some fun n _ => .flushFailing .credit n []
  guard := fun _ _ _ _ => none
  effect := ⟨1, 0, 0⟩
  event := some .credit
  sync := .rollback
  alert := false

def debitSpec : OpSpec where
  op := .debit
  notPositive := .notPositive .debit
  checksRange := true
  breaker := some fun n _ => .flushFailing .debit n []
  guard := needAvailable
  effect := ⟨-1, 0, 0⟩
  event := some .debit
  sync := .logOnly
  alert := false

variable (o : OpSpec)

def OpSpec.update (m : Manager) (now : Time) (k : PositionKey) (ps : PositionState)
    (amount : Decimal) (ref : UUID) (refType : String) : Manager :=
  let m := (m.setPosition k ps).markDirty k
  match o.event with
  | some ev => m.queueEvent now k ps ev amount ref refType
  | none => m

/-- The end of an operation that is in the log: the synchronous flush of a large
amount, then the alert. -/
def OpSpec.finish (w : World) (e : CallEnv) (k : PositionKey) (amount : Decimal)
    (a : ℤ) (ps : PositionState) : World × Result :=
  let alerted (m : Manager) := if o.alert then m.checkMinimum k ps else m
  if o.sync ≠ .none ∧ w.mgr.isLarge k.currency amount then
    match w.syncFlushPosition e k ps with
    | (w', true) => ({ w' with mgr := alerted w'.mgr }, .nil)
    | (w', false) =>
      match o.sync with
      | .rollback =>
        ({ w' with mgr := w'.mgr.setPosition k (o.effect.apply (-a) ps) }, .err (.syncFlushFailed o.op amount ps.id))
      -- the position stays dirty and the next flush tries again
      | _ => (w', .nil)
  else ({ w with mgr := alerted w.mgr }, .nil)

/-- The parts of an operation after its key has been claimed. An error puts the
counters back. -/
def opBody (w : World) (e : CallEnv) (k : PositionKey) (amount : Decimal)
    (ref : UUID) (refType : String) : World × Result :=
  match w.mgr.positions k with
  | none => (w, .err (.insufficientFunds k.currency k.location))
  | some ps =>
    match toMicro amount with
    -- the key stays claimed: a panic runs no rollback
    | none => (w, .panic)
    | some a =>
      match o.guard k ps a ref with
      | some err => (w, .err err)
      | none =>
        let ps' := o.effect.apply a ps
        let w₁ : World := { w with mgr := o.update w.mgr e.now k ps' amount ref refType }
        match w₁.logOp e k amount ref o.op with
        | (w₂, some err) => ({ w₂ with mgr := w₂.mgr.setPosition k (o.effect.apply (-a) ps') }, .err err)
        | (w₂, none) => o.finish w₂ e k amount a ps'

/-- The stages around the body of an operation. The checks come before the idempotency key is claimed; every error
after that gives the key back. -/
def checked (w : World) (now : Time) (amount : Decimal) (ref : UUID) (body : World → World × Result) :
    World × Result :=
  if ¬ 0 < amount then (w, .err o.notPositive)
  else if o.checksRange ∧ ¬ microInRange amount then (w, .err (.exceedsMaximum amount))
  else
    match o.breaker, decide (Manager.maxFlushFailuresBeforeReject ≤ w.mgr.consecutiveFlushFailures) with
    | some mk, true => (w, .err (mk w.mgr.consecutiveFlushFailures w.mgr.failedPositionIDs))
    | _, _ =>
      let key : IdempotencyKey := ⟨ref, o.op⟩
      -- a duplicate is reported as success
      if w.mgr.held key then (w, .nil)
      else
        match body { w with mgr := w.mgr.acquire now key } with
        | (w', .err err) => ({ w' with mgr := w'.mgr.rollbackIdempotency key }, .err err)
        | r => r

/-- One operation. -/
def runOp (w : World) (e : CallEnv) (k : PositionKey) (amount : Decimal) (ref : UUID) (refType : String) :
    World × Result :=
  checked o w e.now amount ref fun w => opBody o w e k amount ref refType

namespace World

variable (w : World) (e : CallEnv) (k : PositionKey) (amount : Decimal) (reference : UUID)

def reserve : World × Result := runOp reserveSpec w e k amount reference ""

def release : World × Result := runOp releaseSpec w e k amount reference ""

def commitReservation : World × Result := runOp commitSpec w e k amount reference ""

def consumeReservation : World × Result := runOp consumeSpec w e k amount reference "transfer"

def creditBalance (refType : String) : World × Result := runOp creditSpec w e k amount reference refType

def debitBalance (refType : String) : World × Result := runOp debitSpec w e k amount reference refType

/-- `Manager.UpdateBalance`: no key, no log; the new balance must cover what is committed. -/
def updateBalance (newBalance : Decimal) : World × Result :=
  match toMicro newBalance with
  | none => (w, .err (.exceedsMaximum newBalance))
  | some v =>
    match w.mgr.positions k with
    | none => (w, .err (.insufficientFunds k.currency k.location))
    | some ps =>
      if v < ps.lockedMicro + ps.reservedMicro then
        (w, .err (.belowCommitted newBalance ps.lockedMicro ps.reservedMicro))
      else
        ({ w with mgr := (w.mgr.setPosition k { ps with balanceMicro := v }).markDirty k }, .nil)

end World

inductive Call
  | op (op : ReserveOpType) (k : PositionKey) (amount : Decimal) (reference : UUID) (refType : String)
  | updateBalance (k : PositionKey) (newBalance : Decimal)
  deriving DecidableEq

def Call.position : Call → PositionKey
  | .op _ k _ _ _ => k
  | .updateBalance k _ => k

def specOf : ReserveOpType → OpSpec
  | .reserve => reserveSpec
  | .release => releaseSpec
  | .commit => commitSpec
  | .consume => consumeSpec
  | .credit => creditSpec
  | .debit => debitSpec

def ReserveOpType.refType : ReserveOpType → String → String
  | .reserve, _ => ""
  | .release, _ => ""
  | .commit, _ => ""
  | .consume, _ => "transfer"
  | .credit, refType => refType
  | .debit, refType => refType

def World.exec (w : World) (e : CallEnv) : Call → World × Result
  | .op .reserve k amount ref _ => w.reserve e k amount ref
  | .op .release k amount ref _ => w.release e k amount ref
  | .op .commit k amount ref _ => w.commitReservation e k amount ref
  | .op .consume k amount ref _ => w.consumeReservation e k amount ref
  | .op .credit k amount ref refType => w.creditBalance e k amount ref refType
  | .op .debit k amount ref refType => w.debitBalance e k amount ref refType
  | .updateBalance k newBalance => w.updateBalance k newBalance

/-! ## Calls without the flush loop -/

/-- The capacity of the channel `pendingOps`. -/
def Manager.pendingOpsCap : ℕ := 10000

/-- The manager while no flush loop runs, with the number of entries in `pendingOps`. -/
structure Unflushed where
  world : World
  pending : ℕ

/-- A call. Only the flush loop takes entries out of the channel, so `logOp` waits in vain at a full one. -/
def Unflushed.exec (s : Unflushed) (e : CallEnv) (c : Call) : Unflushed × Result :=
  let room := decide (s.pending < Manager.pendingOpsCap)
  let (w, r) := s.world.exec { e with queued := room } c
  -- `logOp` comes to the channel once the row is written and acknowledged
  let logged := decide (e.wal = .ok ∧ s.world.db.reserveOps.length < w.db.reserveOps.length)
  (⟨w, if room && logged then s.pending + 1 else s.pending⟩, r)

end Settla.Treasury
