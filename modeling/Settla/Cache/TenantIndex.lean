import Mathlib.Data.List.Sort
import Settla.Api.Validation

/-!
# The index of active tenants

The walk over all tenants in batches: the pages of a Redis set, or pages of a table if Redis fails. What the
callback was passed is a list of batches.
-/

namespace Settla.Cache

open Api

/-- The error of a walk, and the batches passed to the callback. -/
abbrev Walk := Option String × List (List UUID)

/-- One call of the callback, whose error ends the walk; `fn n` is what its `n`-th call returns. -/
def call (fn : ℕ → Option String) (ids : List UUID) (passed : List (List UUID))
    (next : List (List UUID) → Walk) : Walk :=
  match fn passed.length with
  | some err => (some err, passed ++ [ids])
  | none => next (passed ++ [ids])

/-- The scan ends at page `i` with the error `redis i`: that of `SSCAN`, or of a context that is done. -/
def forEachRedis (fn redis : ℕ → Option String) : ℕ → List (List String) → List (List UUID) → Walk
  | _, [], passed => (none, passed)
  | i, keys :: pages, passed =>
    match redis i with
    | some err => (some err, passed)
    | none =>
      let ids := keys.filterMap uuidParse
      if ids = [] then forEachRedis fn redis (i + 1) pages passed
      else call fn ids passed (forEachRedis fn redis (i + 1) pages)

/-- The fetch at an offset ends with the error `postgres offset`. An offset past 31 bits is negative. -/
def forEachTenantBatch (fn postgres : ℕ → Option String) (batchSize : ℕ) (tenants : List UUID) (offset : ℕ)
    (passed : List (List UUID)) : Walk :=
  match if offset < 2 ^ 31 then postgres offset else some "OFFSET must not be negative" with
  | some err => (some err, passed)
  | none =>
    let ids := (tenants.drop offset).take batchSize
    if hids : ids = [] then (none, passed)
    else call fn ids passed fun passed =>
      if ids.length < batchSize then (none, passed)
      else
        have : tenants.length - (offset + batchSize) < tenants.length - offset := by
          have hlen : ids.length ≠ 0 := fun h => hids (List.length_eq_zero_iff.1 h)
          simp only [ids, List.length_take, List.length_drop] at hlen
          omega
        forEachTenantBatch fn postgres batchSize tenants (offset + batchSize) passed
termination_by tenants.length - offset

/-- `fallback` is the fetcher, if one is configured. -/
def forEach (fn redis : ℕ → Option String) (fallback : Option (ℕ → Option String)) (batchSize : ℕ)
    (pages : List (List String)) (tenants : List UUID) : Walk :=
  match forEachRedis fn redis 0 pages [], fallback with
  | (none, passed), _ => (none, passed)
  | (some err, passed), none =>
    (some ("settla-tenant-index: Redis unavailable and no fallback configured: " ++ err), passed)
  | (some _, passed), some postgres => forEachTenantBatch fn postgres batchSize tenants 0 passed

/-! ## Keeping the index -/

/-- Where a call stands: a change of status, in Postgres and then in the index, or `Rebuild`. -/
inductive Call
  | commit (tenantID : UUID) (on : Bool)
  | index (tenantID : UUID) (on : Bool)
  | clear
  | fetch (offset : ℕ)
  | sadd (ids : List UUID) (offset : ℕ)
  | rename
  | done
  deriving DecidableEq

/-- The active tenants in Postgres, by id, the members of the set and of the temporary key, and the calls. -/
structure Index where
  active : List UUID
  live : List UUID
  tmp : List UUID
  calls : List Call

def defaultTenantBatchSize : ℕ := 500

def Index.page (s : Index) (offset : ℕ) : List UUID := (s.active.drop offset).take defaultTenantBatchSize

/-- What a call does next if Redis and Postgres answer, and where it then stands. -/
def Index.next (s : Index) : Call → Index × Call
  | .commit t on =>
    let others := s.active.filter (· ≠ t)
    ({ s with active := if on then others.orderedInsert (· ≤ ·) t else others }, .index t on)
  | .index t on => ({ s with live := if on then t :: s.live else s.live.filter (· ≠ t) }, .done)
  | .clear => ({ s with tmp := [] }, .fetch 0)
  | .fetch offset => (s, if s.page offset = [] then .rename else .sadd (s.page offset) offset)
  | .sadd ids offset =>
    ({ s with tmp := s.tmp ++ ids },
      if ids.length < defaultTenantBatchSize then .rename else .fetch (offset + defaultTenantBatchSize))
  -- a key without members does not exist and is not renamed
  | .rename => (if s.tmp = [] then s else { s with live := s.tmp, tmp := [] }, .done)
  | .done => (s, .done)

def Index.step (s : Index) (i : ℕ) : Index :=
  match s.calls[i]? with
  | some c => { (s.next c).1 with calls := s.calls.set i (s.next c).2 }
  | none => s

end Settla.Cache
