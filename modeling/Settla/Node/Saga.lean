import Settla.Core.CreateTransfer
import Settla.Node.TransferWorker
import Settla.Node.TreasuryWorker
import Settla.Treasury.Recovery

/-!
# The transfer saga

The engine's store, the treasury worker and the message bus. Messages can be delivered any number of
times and in any order; results of providers and chains can arrive at any time.
-/

namespace Settla.Node

open Settla.Core Treasury

structure Saga where
  store : Store
  worker : Worker
  bus : List Event

inductive SagaStep
  | create (e : CreateEnv) (tenantID : UUID) (req : CreateTransferRequest)
  /-- an event reaches the transfer worker -/
  | deliver (l : Lookups) (ev : Event)
  /-- an intent reaches the treasury worker, whose result may fail to be published -/
  | execute (e : CallEnv) (i : Intent) (published : Bool)

def providerResults : List EventType :=
  [.providerOnRampDone, .providerOnRampFailed, .providerOffRampDone, .providerOffRampFailed,
    .blockchainConfirmed, .blockchainFailed]

def Saga.Available (s : Saga) (ev : Event) : Prop :=
  ev ∈ eventsOf s.store.outbox ∨ ev ∈ s.bus ∨ ev.type ∈ providerResults

instance (s : Saga) (ev : Event) : Decidable (s.Available ev) :=
  inferInstanceAs (Decidable (_ ∨ _ ∨ _))

def Saga.step (text : Err → String) (s : Saga) : SagaStep → Saga
  | .create e tenantID req => { s with store := s.store.create e tenantID req }
  | .deliver l ev => if s.Available ev then { s with store := (handleEvent s.store l ev).1 } else s
  | .execute e i published =>
    if i ∈ intentsOf s.store.outbox then
      let (worker, ev) := s.worker.execute text e i
      { s with worker := worker, bus := if published then s.bus ++ ev.toList else s.bus }
    else s

def Saga.start (w : World) : Saga := ⟨⟨fun _ => none, []⟩, ⟨w, []⟩, []⟩

/-! ## Driving the engine directly -/

/-- A creation, an engine call with any result, or the delivery of a treasury intent. -/
inductive DriveStep
  | create (e : CreateEnv) (tenantID : UUID) (req : CreateTransferRequest)
  | call (id : UUID) (inv : Invocation)
  | execute (e : CallEnv) (i : Intent)

def Saga.drive (text : Err → String) (s : Saga) : DriveStep → Saga
  | .create e tenantID req => s.step text (.create e tenantID req)
  | .call id inv => { s with store := (s.store.call id inv).1 }
  | .execute e i => s.step text (.execute e i true)

/-! ## Acknowledgements -/

/-- The saga with the treasury intents that the worker has acknowledged. -/
structure AckSaga where
  saga : Saga
  acked : List Intent

/-- A creation, an engine call, a delivery whose result may fail to be published, or a flush. -/
inductive AckStep
  | create (e : CreateEnv) (tenantID : UUID) (req : CreateTransferRequest)
  | call (id : UUID) (inv : Invocation)
  | execute (e : CallEnv) (i : Intent) (published : Bool)
  | flush (e : FlushEnv)

/-- The handlers return what `publishResult` returns: a message comes back unless its result is
published. -/
def AckSaga.step (text : Err → String) (s : AckSaga) : AckStep → AckSaga
  | .create e tenantID req => { s with saga := s.saga.step text (.create e tenantID req) }
  | .call id inv => { s with saga := { s.saga with store := (s.saga.store.call id inv).1 } }
  | .execute e i published =>
    ⟨s.saga.step text (.execute e i published),
      if i ∈ intentsOf s.saga.store.outbox ∧ published ∧ (s.saga.worker.execute text e i).2.isSome then
        s.acked ++ [i]
      else s.acked⟩
  | .flush e =>
    { s with saga := { s.saga with worker :=
      { s.saga.worker with treasury := s.saga.worker.treasury.flushOnce e } } }

def AckSaga.start (w : World) : AckSaga := ⟨.start w, []⟩

end Settla.Node
