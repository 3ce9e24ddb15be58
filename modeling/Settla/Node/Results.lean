import Settla.Lib.Feedback
import Settla.Node.TransferWorker

/-!
# Who advances a transfer

The transfer worker is delivered the events of the outbox; the provider worker, the blockchain worker
and the worker for inbound webhooks report what came of a step.
-/

namespace Settla.Node

open Settla.Core Lib Lib.Feedback

inductive StepResult
  | onRamp (r : IntentResult)
  | settlement (r : IntentResult)
  | offRamp (r : IntentResult)

def StepResult.call : StepResult → EngineCall
  | .onRamp r => .handleOnRampResult r
  | .settlement r => .handleSettlementResult r
  | .offRamp r => .handleOffRampResult r

def StepResult.awaitedIn : StepResult → TransferStatus
  | .onRamp _ => .onRamping
  | .settlement _ => .settling
  | .offRamp _ => .offRamping

/-- A result on its way to the engine, with what the engine finds in the other stores. -/
structure Report where
  tenantID : UUID
  lookups : Lookups
  result : StepResult

def Report.prog (r : Report) : Optimistic.Prog Transfer OutboxEntry EngineResult :=
  Invocation.prog ⟨r.tenantID, r.lookups, r.result.call⟩

/-- `TransferWorker.handleEvent` for an entry of the outbox. Intents go to other workers, events of
other transfers to other rows. -/
def handleEntry (id : UUID) (l : Lookups) (e : OutboxEntry) :
    Option (Optimistic.Prog Transfer OutboxEntry EngineResult) :=
  match e.toEvent with
  | none => none
  | some ev =>
    if ev.transferID ≠ id then none
    else (engineCall ev).map fun call => Invocation.prog ⟨ev.tenantID, l, call⟩

abbrev CallerLabel := Label Transfer OutboxEntry Report

def callers (id : UUID) : Start Lookups Report →
    Threads.Prog (Shared Transfer OutboxEntry) ℕ CallerLabel (Option EngineResult) :=
  code Transfer.version (handleEntry id) Report.prog

end Settla.Node
