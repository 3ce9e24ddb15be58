import Settla.Domain.Types
import Settla.Lib.Threads

/-!
# Leader election of the outbox relay

The instances share one key of a bucket. Who creates it leads, and has to write it again before it expires.
-/

namespace Settla.Node

open Lib.Threads

def leaderTTL : Time := 10 * 10 ^ 9

/-- The leader key. -/
structure LeaderEntry where
  identity : String
  revision : ℕ
  writtenAt : Time

/-- Where the loop is: at a turn or in the wait before it, in `renew` with the revision read, in a call that is done
but has not returned, or ended. -/
inductive ElectorPhase
  | turn
  | update (revision : ℕ)
  | reply (ok : Bool)
  | ended

structure LeaderElector where
  isLeader : Bool
  phase : ElectorPhase
  /-- when it last wrote the key -/
  renewedAt : Time

variable {ι : Type} [DecidableEq ι]

structure Election (ι : Type) where
  identity : ι → String
  electors : ι → LeaderElector
  now : Time
  key : Option LeaderEntry
  revision : ℕ

variable (s : Election ι) (i : ι)

def Election.set (e : LeaderElector) : Election ι := { s with electors := Function.update s.electors i e }

/-- The key is written, with a new revision. -/
def Election.put (ok : Bool) : Election ι :=
  { s.set i { s.electors i with phase := .reply ok, renewedAt := s.now } with
    key := some ⟨s.identity i, s.revision + 1, s.now⟩
    revision := s.revision + 1 }

/-- The next step of an instance: `Create` in `acquire`, `Get` or `Update` in `renew`, or the flag in `Run`. -/
def Election.next (r : Reply) : Election ι :=
  let e := s.electors i
  let failed := s.set i { e with phase := .reply false }
  match e.phase with
  | .turn =>
    if e.isLeader then
      match s.key with
      | some k => if r = .ok ∧ k.identity = s.identity i then s.set i { e with phase := .update k.revision } else failed
      | none => failed
    else if s.key.isNone ∧ r.applied then s.put i (r = .ok)
    else failed
  | .update revision => if s.key.any (·.revision = revision) ∧ r.applied then s.put i (r = .ok) else failed
  | .reply ok => s.set i { e with isLeader := ok, phase := .turn }
  | .ended => s

inductive ElectionStep (ι : Type)
  | tick (d : ℕ)
  /-- the bucket drops the key if it is old enough -/
  | expire
  | next (i : ι) (r : Reply)
  /-- the context is done, at a turn or in the wait, which leaves the flag -/
  | stop (i : ι) (waiting : Bool)

def Election.step : ElectionStep ι → Election ι
  | .tick d => { s with now := s.now + d }
  | .expire => if s.key.any fun k => k.writtenAt + leaderTTL ≤ s.now then { s with key := none } else s
  | .next i r => s.next i r
  | .stop i waiting =>
    let e := s.electors i
    match e.phase with
    | .turn => s.set i { e with isLeader := waiting && e.isLeader, phase := .ended }
    | _ => s

end Settla.Node
