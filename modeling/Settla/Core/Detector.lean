import Settla.Core.Engine
import Settla.Lib.Keyed

/-!
# The recovery detector

`core/recovery`: a cycle lists the transfers that have not moved for a while, tries to recover each
one, and asks for a review of those stuck for long. Of a tenant it looks at fifty for each status.
-/

namespace Settla.Recovery

open Lib.Keyed Settla.Core

structure Thresholds where
  (recover escalate : Time)

def defaultThresholds : List (TransferStatus × Thresholds) :=
  [(.funded, ⟨10 * minute, 30 * minute⟩), (.onRamping, ⟨15 * minute, 60 * minute⟩),
    (.settling, ⟨10 * minute, 30 * minute⟩), (.offRamping, ⟨15 * minute, 60 * minute⟩),
    (.refunding, ⟨15 * minute, 60 * minute⟩)]

structure StuckTransfer where
  (id tenantID : UUID)
  status : TransferStatus
  updatedAt : Time
  /-- type and hash of its transactions -/
  blockchainTxs : List (String × String)

structure ProviderStatus where
  (status reference error : String)

structure ChainStatus where
  confirmed : Bool
  (txHash error : String)

/-- The errors of an engine call, as far as the detector tells them apart. -/
inductive CallErr
  | optimisticLock | invalidTransition
  /-- the text has "concurrent modification" -/
  | concurrentModification | other
  deriving DecidableEq

/-- The answers to the recovery of one transfer. -/
structure Answers where
  alreadyRunning : Bool
  provider : Option ProviderStatus
  chain : Option ChainStatus
  engine : Except CallErr Unit
  (hasActiveReview createManualReview : Bool)

/-! ## Recovery -/

/-- What a recovery does. A `tolerant` call counts as recovered if the transfer has already moved
on. -/
inductive Attempt
  | skip | checkFailed
  | call (c : EngineCall) (tolerant : Bool)

def recoverFunded : Attempt := .call .initiateOnRamp true

def recoverByProvider (handle : IntentResult → EngineCall) : Option ProviderStatus → Attempt
  | none => .checkFailed
  | some p =>
    if p.status = "completed" then .call (handle ⟨true, "", ""⟩) false
    else if p.status = "failed" then .call (handle ⟨false, "", p.error⟩) false
    -- "pending", "unknown" and everything else
    else .skip

def recoverOnRamping (a : Answers) : Attempt := recoverByProvider .handleOnRampResult a.provider

def settlementHash (t : StuckTransfer) : String :=
  match t.blockchainTxs.find? (·.1 = "settlement") with
  | some tx => tx.2
  | none => ""

def recoverSettling (t : StuckTransfer) (a : Answers) : Attempt :=
  if settlementHash t = "" then .skip
  else
    match a.chain with
    | none => .checkFailed
    | some c =>
      if c.confirmed then .call (.handleSettlementResult ⟨true, c.txHash, ""⟩) false
      else if c.error ≠ "" then .call (.handleSettlementResult ⟨false, "", c.error⟩) false
      else .skip

def recoverOffRamping (a : Answers) : Attempt := recoverByProvider .handleOffRampResult a.provider

def recoverRefunding : Attempt := .call (.handleRefundResult ⟨true, "", ""⟩) true

def attempt (t : StuckTransfer) (a : Answers) : Attempt :=
  if a.alreadyRunning then .skip
  else
    match t.status with
    | .funded => recoverFunded
    | .onRamping => recoverOnRamping a
    | .settling => recoverSettling t a
    | .offRamping => recoverOffRamping a
    | .refunding => recoverRefunding
    | _ => .skip

inductive Outcome
  /-- the engine has carried out the call -/
  | acted
  /-- the engine has refused it, and the transfer counts as recovered -/
  | advanced | skipped | failed
  deriving DecidableEq

def recoverTransfer (t : StuckTransfer) (a : Answers) : Outcome :=
  match attempt t a with
  | .skip => .skipped
  | .checkFailed => .failed
  | .call _ tolerant =>
    match a.engine with
    | .ok () => .acted
    | .error e => if tolerant ∧ e ≠ .other then .advanced else .failed

/-! ## A cycle -/

structure ManualReview where
  (transferID tenantID : UUID)
  transferStatus : TransferStatus
  stuckSince : Time
  resolved : Bool

def Active (reviews : List ManualReview) (id : UUID) : Prop := ∃ r ∈ reviews, r.transferID = id ∧ r.resolved = false

instance (reviews : List ManualReview) (id : UUID) : Decidable (Active reviews id) :=
  inferInstanceAs (Decidable (∃ _ ∈ _, _))

/-- `escalate`, with the reviews and whether it returned no error. -/
def escalate (reviews : List ManualReview) (t : StuckTransfer) (a : Answers) : List ManualReview × Bool :=
  if ¬ a.hasActiveReview then (reviews, false)
  else if Active reviews t.id then (reviews, true)
  else if ¬ a.createManualReview then (reviews, false)
  else (reviews ++ [⟨t.id, t.tenantID, t.status, t.updatedAt, false⟩], true)

structure Cycle where
  reviews : List ManualReview
  (recovered escalated skipped : ℕ)

/-- Look at one transfer. A recovery that fails is only logged. -/
def Cycle.handle (now : Time) (th : Thresholds) (c : Cycle) (t : StuckTransfer) (a : Answers) : Cycle :=
  match recoverTransfer t a with
  | .failed => c
  | .acted => { c with recovered := c.recovered + 1 }
  | .advanced => { c with recovered := c.recovered + 1 }
  | .skipped =>
    if th.escalate ≤ now - t.updatedAt then
      let (reviews, done) := escalate c.reviews t a
      { c with reviews, escalated := if done then c.escalated + 1 else c.escalated, skipped := c.skipped + 1 }
    else { c with skipped := c.skipped + 1 }

def maxPerTenantPerCycle : ℕ := 50

/-- The loop over the transfers of a status, with the number of those of each tenant. -/
def Cycle.list (now : Time) (th : Thresholds) : (UUID → ℕ) → Cycle → List (StuckTransfer × Answers) → Cycle
  | _, c, [] => c
  | counts, c, (t, a) :: rest =>
    if maxPerTenantPerCycle ≤ counts t.tenantID then Cycle.list now th counts { c with skipped := c.skipped + 1 } rest
    else Cycle.list now th (Function.update counts t.tenantID (counts t.tenantID + 1)) (c.handle now th t a) rest

/-- What `ListStuckTransfers` returns for a status and a cutoff, each transfer with the answers
its recovery gets. -/
abbrev Listing := TransferStatus → Time → Option (List (StuckTransfer × Answers))

/-- `Detector.runCycle`. A status that cannot be listed is left out. -/
def runCycle (order : Reading (TransferStatus × Thresholds)) (thresholds : List (TransferStatus × Thresholds))
    (listing : Listing) (now : Time) (reviews : List ManualReview) : Cycle :=
  (order.read thresholds).foldl (fun c e =>
    match listing e.1 (now - e.2.recover) with
    | none => c
    | some transfers => Cycle.list now e.2 (fun _ => 0) c transfers) ⟨reviews, 0, 0, 0⟩

end Settla.Recovery
