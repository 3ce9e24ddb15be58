import Settla.Core.CreateTransfer
import Settla.Lib.Exclusive

/-!
# Creating transfers at the same time

`CreateTransfer` step by step: the lookup of the idempotency key, the daily volume (read the counter,
else sum the table and seed the counter), the insert, and the increment of the counter. All unique
indexes of the table include the creation time.
-/

namespace Settla.Core

open Lib.Threads

structure StoredTransfer where
  transfer : Transfer
  createdAt : Time

def day (t : Time) : ℤ := t / (24 * 60 * minute)

def micro (t : Time) : Time := t / 1000 * 1000

def lookupWindow : Time := 72 * 60 * minute

/-- The table, what is read of the keys of the daily volume counter, and the clock. -/
structure CreateDB where
  rows : List StoredTransfer
  counter : UUID → ℤ → Option Decimal
  clock : Time

def CreateDB.empty (clock : Time) : CreateDB := ⟨[], fun _ _ => none, clock⟩

variable (db : CreateDB)

def CreateDB.today : ℤ := day db.clock

variable (tenantID : UUID)

def StoredTransfer.keyed (key : String) (r : StoredTransfer) : Bool :=
  r.transfer.tenantID = tenantID && r.transfer.idempotencyKey = key

def CreateDB.recent (key : String) : List StoredTransfer :=
  db.rows.filter fun r => r.keyed tenantID key && decide (db.clock - lookupWindow ≤ r.createdAt)

/-- `GetTransferByIdempotencyKey`. Of several rows the database picks one. -/
def CreateDB.getTransferByIdempotencyKey (key : String) (pick : ℕ) :
    Option Transfer :=
  (((db.recent tenantID key)[pick]?).or (db.recent tenantID key).head?).map (·.transfer)

variable (d : ℤ)

def StoredTransfer.onDay (r : StoredTransfer) : Bool :=
  r.transfer.tenantID = tenantID && day r.createdAt = d

/-- `SumDailyVolumeByTenant`: failed and refunded transfers do not count. -/
def CreateDB.sumDailyVolume : Decimal :=
  ((db.rows.filter fun r => r.onDay tenantID d &&
    r.transfer.status ≠ .failed && r.transfer.status ≠ .refunded).map (·.transfer.stableAmount)).sum

/-- The unique indexes, each with the creation time. Empty texts are stored as NULL and not indexed. -/
def CreateDB.conflicts (t : Transfer) : Bool :=
  db.rows.any fun r => r.createdAt = micro db.clock &&
    (r.transfer.id = t.id ||
      (r.transfer.tenantID = t.tenantID && t.idempotencyKey ≠ "" && r.transfer.idempotencyKey = t.idempotencyKey) ||
      (r.transfer.tenantID = t.tenantID && t.externalRef ≠ "" && r.transfer.externalRef = t.externalRef))

def CreateDB.insert (t : Transfer) : CreateDB :=
  { db with rows := db.rows ++ [⟨t, micro db.clock⟩] }

def CreateDB.setCounter (v : Option Decimal) : CreateDB :=
  { db with counter := Function.update db.counter tenantID (Function.update (db.counter tenantID) d v) }

/-- `SeedDailyVolume`. The value goes through float64 and a text in Redis; `float` is what is read of it. -/
def CreateDB.seedDailyVolume (float : Decimal → Decimal) (v : Decimal) : CreateDB :=
  db.setCounter tenantID d ((db.counter tenantID d).or (some (float v)))

/-- `IncrDailyVolume`: a missing key counts as zero. Redis adds in its own format. -/
def CreateDB.incrDailyVolume (float : Decimal → Decimal) (x : Decimal) : CreateDB :=
  db.setCounter tenantID d (some (float ((db.counter tenantID d).getD 0 + x)))

structure CreateAnswer where
  reply : Reply := .ok
  /-- which of several rows a lookup returns -/
  pick : ℕ := 0
  /-- what the daily volume counter keeps of a value -/
  float : Decimal → Decimal := id

/-- The steps of a call, with the amount it creates and what it has read. -/
inductive CreateStep
  | lookup
  | getVolume (amount : Decimal)
  | sumVolume (today : ℤ) (amount : Decimal)
  | seedVolume (today : ℤ) (volume amount : Decimal)
  /-- with the day and the volume the limit was checked against, if there is a limit -/
  | persist (checked : Option (ℤ × Decimal)) (amount : Decimal) (row : Transfer)
  | increment (createdOn : ℤ) (amount : Decimal) (transfer : Transfer)
  deriving DecidableEq

/-- Steps of a call of a tenant with an idempotency key, and steps of everything else. -/
inductive CreateLabel
  | call (tenantID : UUID) (key : String) (step : CreateStep)
  | other
  deriving DecidableEq

structure CreateReturn where
  tenantID : UUID
  key : String
  result : Except CreateErr Transfer

abbrev CreateProg := Prog CreateDB CreateAnswer CreateLabel (Option CreateReturn)

/-- The transfer `CreateTransferWithOutbox` hands back: it takes the ID and the version of its
row. -/
def asStored (t row : Transfer) : Transfer := { t with id := row.id, version := row.version }

section Call

variable (e : CreateEnv) (tenantID : UUID) (tenant : Tenant) (req : CreateTransferRequest) (q : Quote)

def returning (result : Except CreateErr Transfer) : CreateProg :=
  .ret (some ⟨tenantID, req.idempotencyKey, result⟩)

def stepping (step : CreateStep) (f : CreateAnswer → CreateDB → CreateDB)
    (k : CreateAnswer → CreateDB → CreateProg) : CreateProg :=
  .act (.call tenantID req.idempotencyKey step) f k

/-- `incrDailyVolume`: the day is that of the increment. Errors are only logged. -/
def incrementing (createdOn : ℤ) (t : Transfer) : CreateProg :=
  stepping tenantID req (.increment createdOn q.stableAmount t)
    (fun a db => if a.reply.applied then db.incrDailyVolume tenantID db.today a.float q.stableAmount else db)
    fun _ _ => returning tenantID req (.ok t)

/-- Steps g to i: build the transfer, check its fees, insert the row, count the amount. -/
def persisting (checked : Option (ℤ × Decimal)) : CreateProg :=
  let t := newTransfer e tenantID req q
  match checkFees t with
  | .error err => returning tenantID req (.error err)
  | .ok () =>
    match storeRow e t with
    | none => returning tenantID req (.error .persisting)
    | some row =>
      stepping tenantID req (.persist checked q.stableAmount row)
        (fun a db => if a.reply.applied && !db.conflicts row then db.insert row else db)
        fun a db =>
          if a.reply = .ok ∧ db.conflicts row = false then
            if tenant.dailyLimitUSD ≠ 0 then incrementing tenantID req q (day (micro db.clock)) (asStored t row)
            else returning tenantID req (.ok (asStored t row))
          else returning tenantID req (.error .persisting)

def checkingVolume (today : ℤ) (volume : Decimal) : CreateProg :=
  if tenant.dailyLimitUSD < volume + q.stableAmount then returning tenantID req (.error .dailyLimitExceeded)
  else persisting e tenantID tenant req q (some (today, volume))

/-- What the counter says; zero if it has no value or is unavailable. -/
def counterVolume (a : CreateAnswer) (db : CreateDB) : Decimal :=
  if a.reply = .ok then (db.counter tenantID db.today).getD 0 else 0

/-- `getDailyVolume` with a counter, which is seeded from the table when it says zero. -/
def readingVolume : CreateProg :=
  stepping tenantID req (.getVolume q.stableAmount) (fun _ db => db) fun a db =>
    let today := db.today
    if counterVolume tenantID a db ≠ 0 then checkingVolume e tenantID tenant req q today (counterVolume tenantID a db)
    else
      stepping tenantID req (.sumVolume today q.stableAmount) (fun _ db => db) fun a db =>
        if a.reply = .ok then
          let dbVol := db.sumDailyVolume tenantID today
          stepping tenantID req (.seedVolume today dbVol q.stableAmount)
            (fun a db => if a.reply.applied then db.seedDailyVolume tenantID today a.float dbVol else db)
            fun _ _ => checkingVolume e tenantID tenant req q today dbVol
        else returning tenantID req (.error .checkingDailyVolume)

def checkPerTransfer : Except CreateErr Unit := do
  if tenant.perTransferLimit ≠ 0 ∧ tenant.perTransferLimit < q.stableAmount then
    throw (.amountTooHigh q.stableAmount tenant.perTransferLimit)

/-- Steps c2 to e: the checks that read nothing the calls share. -/
def checkNew : Except CreateErr Quote := do
  checkPending e tenantID tenant
  let q ← resolveQuote e tenantID req
  checkQuote e req q
  checkPerTransfer tenant q
  pure q

/-- The part of `CreateTransfer` after the idempotency check. -/
def creatingRow : CreateProg :=
  match checkNew e tenantID tenant req with
  | .error err => returning tenantID req (.error err)
  | .ok q =>
    if tenant.dailyLimitUSD ≠ 0 then readingVolume e tenantID tenant req q
    else persisting e tenantID tenant req q none

/-- `CreateTransfer`. A lookup that fails is taken for one that finds nothing. -/
def creating : CreateProg :=
  match e.getTenant tenantID with
  | none => returning tenantID req (.error .loadingTenant)
  | some tenant =>
    match checkRequest tenant req with
    | .error err => returning tenantID req (.error err)
    | .ok () =>
      if req.idempotencyKey ≠ "" then
        stepping tenantID req .lookup (fun _ db => db) fun a db =>
          match if a.reply = .ok then db.getTransferByIdempotencyKey tenantID req.idempotencyKey a.pick else none with
          | some t => returning tenantID req (.ok t)
          | none => creatingRow e tenantID tenant req
      else creatingRow e tenantID tenant req

end Call

/-- What can be started: a call, and what else happens to the database. -/
inductive CreateThread
  | create (e : CreateEnv) (tenantID : UUID) (req : CreateTransferRequest)
  /-- time passes -/
  | tick (elapsed : ℕ)
  /-- a transfer moves on -/
  | advance (id : UUID) (status : TransferStatus)

def createThread (tenants : UUID → Option Tenant) : CreateThread → CreateProg
  | .create e tenantID req => creating { e with getTenant := tenants } tenantID req
  | .tick elapsed => .act .other (fun _ db => { db with clock := db.clock + elapsed }) fun _ _ => .ret none
  | .advance id status =>
    .act .other
      (fun _ db => { db with
        rows := db.rows.map fun r => if r.transfer.id = id then { r with transfer := r.transfer.advance status } else r })
      fun _ _ => .ret none

end Settla.Core
