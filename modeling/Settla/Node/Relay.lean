import Settla.Domain.Types
import Settla.Lib.Json
import Settla.Lib.Keyed
import Settla.Lib.Threads

/-!
# The outbox relay

`Relay.poll` with the queries of `outbox.sql`: a poll fetches the oldest rows that are not published
and have retries left, and the goroutines of the tenants publish theirs one after the other.
-/

namespace Settla.Node.Relay

open Lib Lib.Keyed Lib.Threads

structure OutboxRow where
  id : UUID
  aggregateType : String
  (aggregateID tenantID : UUID)
  eventType : String
  payload : Json
  (isIntent published : Bool)
  (retryCount maxRetries : ℕ)
  createdAt : Time

def OutboxRow.key (r : OutboxRow) : UUID × Time := (r.id, r.createdAt)

structure Outbox where
  rows : List OutboxRow
  /-- the primary key -/
  keys : (rows.map OutboxRow.key).Nodup
  /-- what was published to NATS -/
  log : List (UUID × Time)

/-- What the goroutines of the tenants publish, each its entries in order. -/
structure Schedule extends Reading OutboxRow where
  inTurn : ∀ es t, (read es).filter (·.tenantID = t) = es.filter (·.tenantID = t)

/-- How a poll comes out. -/
structure Poll where
  /-- `ORDER BY created_at` -/
  sort : Sorting OutboxRow fun a b => a.createdAt < b.createdAt
  schedule : Schedule
  publish : UUID × Time → Reply
  /-- to `MarkPublished` or `MarkFailed` -/
  mark : UUID × Time → Reply

def OutboxRow.eligible (r : OutboxRow) : Bool := !r.published && r.retryCount < r.maxRetries

variable (p : Poll)

def Poll.fetch (batchSize : ℕ) (s : Outbox) : List OutboxRow :=
  (p.sort.read (s.rows.filter OutboxRow.eligible)).take batchSize

/-- A time is marshalled if its year is between 0 and 9999. -/
def marshals (t : Time) : Bool := -62167219200 * second ≤ t ∧ t < 253402300800 * second

def Poll.marked (r : OutboxRow) : OutboxRow :=
  if marshals r.createdAt ∧ (p.mark r.key).applied then
    if p.publish r.key = .ok then { r with published := true } else { r with retryCount := r.retryCount + 1 }
  else r

theorem marked_key (r : OutboxRow) : (p.marked r).key = r.key := by
  unfold Poll.marked
  split_ifs <;> rfl

theorem map_marked_keys (rows : List OutboxRow) (k : UUID × Time) :
    (rows.map fun r => if r.key = k then p.marked r else r).map OutboxRow.key = rows.map OutboxRow.key := by
  rw [List.map_map]
  refine List.map_congr_left fun r _ => ?_
  simp only [Function.comp]
  split_ifs
  · exact marked_key p r
  · rfl

/-- An entry that cannot be marshalled stays as it is. -/
def publishEntry (s : Outbox) (e : OutboxRow) : Outbox where
  rows := s.rows.map fun r => if r.key = e.key then p.marked r else r
  keys := by rw [map_marked_keys]; exact s.keys
  log := if marshals e.createdAt ∧ (p.publish e.key).applied then s.log ++ [e.key] else s.log

/-- What `publishBatch` publishes: entries without an ID are skipped. -/
def Poll.batch (batchSize : ℕ) (s : Outbox) : List OutboxRow :=
  p.schedule.read ((p.fetch batchSize s).filter (·.id ≠ UUID.nil))

def poll (batchSize : ℕ) (s : Outbox) (p : Poll) : Outbox := run (publishEntry p) s (p.batch batchSize s)

end Settla.Node.Relay
