import Settla.Domain.Outbox
import Settla.Treasury.Manager

/-!
# The treasury worker

Treasury intents are executed against the manager. A `Worker` is the manager's world with the history of
what was executed and what it added to the reserved counter.
-/

namespace Settla.Node

open Treasury

/-- The reference `handleRelease` passes on: one for each reason. -/
def releaseRef (transferID : UUID) (reason : String) : UUID :=
  if reason ≠ "" then UUID.newSHA1 transferID reason else transferID

section

variable (text : Err → String) (w : World) (e : CallEnv)

/-- `publishResult` after a call that reports its errors. A panic publishes nothing. -/
def resultEvent (tenantID transferID : UUID) (done : EventType) : Result → Option Event
  | .nil => some ⟨done, tenantID, transferID, some "", none⟩
  | .err err => some ⟨.treasuryFailed, tenantID, transferID, some (text err), none⟩
  | .panic => none

def handleReserve (p : TreasuryReservePayload) : World × Result × Option Event :=
  let (w', r) := w.reserve e ⟨p.tenantID, p.currency, p.location⟩ p.amount p.transferID
  (w', r, resultEvent text p.tenantID p.transferID .treasuryReserved r)

def handleRelease (p : TreasuryReleasePayload) : World × Result × Option Event :=
  let (w', r) := w.release e ⟨p.tenantID, p.currency, p.location⟩ p.amount (releaseRef p.transferID p.reason)
  (w', r, some ⟨.treasuryReleased, p.tenantID, p.transferID, some "", none⟩)

def handleConsume (p : TreasuryConsumePayload) : World × Result × Option Event :=
  let (w', r) := w.consumeReservation e ⟨p.tenantID, p.currency, p.location⟩ p.amount p.transferID
  (w', r, resultEvent text p.tenantID p.transferID .treasuryConsumed r)

/-- `TreasuryWorker.handleEvent` on the intents of the engine; others are skipped. -/
def handleIntent : Intent → Option (World × Result × Option Event)
  | .treasuryReserve p => some (handleReserve text w e p)
  | .treasuryRelease p => some (handleRelease w e p)
  | .treasuryConsume p => some (handleConsume text w e p)
  | _ => none

end

def positionOf : Intent → Option PositionKey
  | .treasuryReserve p => some ⟨p.tenantID, p.currency, p.location⟩
  | .treasuryRelease p => some ⟨p.tenantID, p.currency, p.location⟩
  | .treasuryConsume p => some ⟨p.tenantID, p.currency, p.location⟩
  | _ => none

def reservedAt (w : World) (k : PositionKey) : ℤ :=
  match w.mgr.positions k with
  | some ps => ps.reservedMicro
  | none => 0

def reservedFor (w : World) (i : Intent) : ℤ :=
  match positionOf i with
  | some k => reservedAt w k
  | none => 0

/-- One executed intent: what the treasury returned and what it added to the reserved
counter. -/
structure Executed where
  intent : Intent
  result : Result
  added : ℤ

/-- The treasury behind the worker, with the history of executed intents. -/
structure Worker where
  treasury : World
  history : List Executed

/-- Execute one delivery of an intent, and return the event to publish. -/
def Worker.execute (text : Err → String) (s : Worker) (e : CallEnv) (i : Intent) : Worker × Option Event :=
  match handleIntent text s.treasury e i with
  | none => (s, none)
  | some (w', r, ev) => (⟨w', s.history ++ [⟨i, r, reservedFor w' i - reservedFor s.treasury i⟩]⟩, ev)

/-- What an executed intent added to the reserved counter for transfer `id` as a reserve. -/
def Executed.reserves (id : UUID) (x : Executed) : ℤ :=
  match x.intent with
  | .treasuryReserve p => if p.transferID = id then x.added else 0
  | _ => 0

/-- What an executed intent took off the reserved counter for transfer `id` as a release
or a consume. -/
def Executed.frees (id : UUID) (x : Executed) : ℤ :=
  match x.intent with
  | .treasuryRelease p => if p.transferID = id then -x.added else 0
  | .treasuryConsume p => if p.transferID = id then -x.added else 0
  | _ => 0

def Worker.totalReserved (s : Worker) (id : UUID) : ℤ := (s.history.map (Executed.reserves id)).sum

def Worker.totalFreed (s : Worker) (id : UUID) : ℤ := (s.history.map (Executed.frees id)).sum

def Worker.Reserved (s : Worker) (id : UUID) : Prop :=
  ∃ x ∈ s.history, x.result = .nil ∧ ∃ p, x.intent = .treasuryReserve p ∧ p.transferID = id

end Settla.Node
