import Settla.Core.Engine

/-!
# The transfer worker

Events of the pipeline become engine calls. An invalid transition is acknowledged, because the transfer
has moved on; any other error is returned and the event comes back.
-/

namespace Settla.Node

open Settla.Core

def extractErrorFromEvent (ev : Event) : String := ev.error.getD "unknown error"

def extractTxHashFromEvent (ev : Event) : String := ev.txHash.getD ""

def engineCall (ev : Event) : Option EngineCall :=
  match ev.type with
  | .transferCreated => some .fundTransfer
  | .transferFunded => some .initiateOnRamp
  -- results of the treasury worker
  | .treasuryReserved => some .initiateOnRamp
  | .treasuryFailed => some (.failTransfer (extractErrorFromEvent ev) "TREASURY_FAILED")
  -- results of the provider and blockchain workers
  | .providerOnRampDone => some (.handleOnRampResult ⟨true, "", ""⟩)
  | .providerOnRampFailed => some (.handleOnRampResult ⟨false, "", extractErrorFromEvent ev⟩)
  | .blockchainConfirmed => some (.handleSettlementResult ⟨true, extractTxHashFromEvent ev, ""⟩)
  | .blockchainFailed => some (.handleSettlementResult ⟨false, "", extractErrorFromEvent ev⟩)
  | .providerOffRampDone => some (.handleOffRampResult ⟨true, "", ""⟩)
  | .providerOffRampFailed => some (.handleOffRampResult ⟨false, "", extractErrorFromEvent ev⟩)
  -- legacy events
  | .onRampCompleted => some (.handleOnRampResult ⟨true, "", ""⟩)
  | .settlementCompleted => some (.handleSettlementResult ⟨true, "", ""⟩)
  | .offRampCompleted => some (.handleOffRampResult ⟨true, "", ""⟩)
  -- acknowledgments and everything else
  | .transferCompleted | .transferFailed | .refundInitiated | .refundCompleted
  | .treasuryReleased | .treasuryConsumed | .ledgerPosted | .ledgerReversed => none

/-- `callEngine`: whether the event is acknowledged after this result. -/
def acknowledged : EngineResult → Bool
  | .ok () => true
  | .error (.invalidTransition _ _) => true
  | .error _ => false

/-- `TransferWorker.handleEvent`, with whether the event is acknowledged. -/
def handleEvent (s : Store) (l : Lookups) (ev : Event) : Store × Bool :=
  match engineCall ev with
  | none => (s, true)
  | some call =>
    let (s', r) := s.call ev.transferID ⟨ev.tenantID, l, call⟩
    (s', acknowledged r)

end Settla.Node
