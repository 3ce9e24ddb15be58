import Settla.Core.Engine
import Settla.Lib.Threads

/-!
# Compensation

`core/compensation`: the strategy for a transfer that went wrong, what the reversal of an on-ramp
costs, and how a plan is carried out by methods of the engine.
-/

namespace Settla.Compensation

open Lib Settla.Core

/-! ## The loss of a reversal -/

def estimateFXLoss (stableAmount originalRate currentRate : Decimal) : Decimal :=
  if currentRate = 0 ∨ originalRate = 0 then 0
  else roundPlaces 8 (roundPlaces 16 (stableAmount / currentRate) - roundPlaces 16 (stableAmount / originalRate))

structure FXLossResult where
  (originalAmount reversedAmount fxLoss lossPercent originalRate reversalRate : Decimal)

def calculateFXLoss (originalAmount originalRate reversalRate : Decimal) : FXLossResult :=
  if originalRate = 0 ∨ reversalRate = 0 then ⟨originalAmount, originalAmount, 0, 0, originalRate, reversalRate⟩
  else
    let stableAmount := originalAmount * originalRate
    let reversedAmount := roundPlaces 16 (stableAmount / reversalRate)
    let loss := originalAmount - reversedAmount
    let capped := loss < 0
    let fxLoss := if capped then 0 else loss
    { originalAmount := originalAmount
      reversedAmount := if capped then originalAmount else reversedAmount
      fxLoss := fxLoss
      lossPercent := if 0 < originalAmount then roundPlaces 16 (fxLoss * 100 / originalAmount) else 0
      originalRate := originalRate
      reversalRate := reversalRate }

/-! ## Strategies -/

inductive Strategy
  | simpleRefund | reverseOnRamp | creditStablecoin | manualReview
  deriving DecidableEq

structure Tenant where
  slug : String
  metadata : List (String × String)

def autoRefundCurrency (tenant : Tenant) : String := (tenant.metadata.lookup "auto_refund_currency").getD "source"

structure ExternalStatus where
  onRampStatus : String
  blockchainConfirmed : Option Bool
  blockchainError : String
  currentRate : Decimal

def stepOnRampCompleted : String := "onramp_completed"

structure ProviderReverseOnRampPayload where
  (transferID tenantID : UUID)
  providerID : String
  stableAmount : Decimal
  (stableCoin sourceCurrency : Currency)
  originalRate : Decimal

structure PositionCreditPayload where
  (transferID tenantID : UUID)
  currency : Currency
  amount : Decimal

/-- `CompensationStep`: an intent by its type, with the payload. -/
inductive Step
  | treasuryRelease (p : TreasuryReleasePayload)
  | ledgerReverse (p : LedgerPostPayload)
  | reverseOnRamp (p : ProviderReverseOnRampPayload)
  | positionCredit (p : PositionCreditPayload)

def Step.type : Step → String
  | .treasuryRelease _ => "treasury.release"
  | .ledgerReverse _ => "ledger.reverse"
  | .reverseOnRamp _ => "provider.reverse_onramp"
  | .positionCredit _ => "position.credit"

structure CompensationPlan where
  strategy : Strategy
  (transferID tenantID : UUID)
  refundAmount : Decimal
  refundCurrency : Currency
  fxLoss : Decimal
  steps : List Step
  transferStatus : TransferStatus

variable (t : Transfer)

def releaseStep (reason : String) : Step :=
  .treasuryRelease ⟨t.id, t.tenantID, t.sourceCurrency, t.sourceAmount, location t, reason⟩

/-- The reversal of a step. There are lines only if a stablecoin amount is known. -/
def reverseStep (slug key description d₁ d₂ d₃ : String) : Step :=
  .ledgerReverse ⟨t.id, t.tenantID, key ++ ":" ++ t.id.string, description ++ " for transfer " ++ t.id.string, "reversal",
    if 0 < t.stableAmount then clearingLines t slug .credit d₁ d₂ d₃ else []⟩

def buildSimpleRefundSteps (slug : String) : List Step :=
  [releaseStep t "compensation_simple_refund",
    reverseStep t slug "compensation-reverse" "Compensation reversal" "Compensation: reverse crypto asset"
      "Compensation: reverse on-ramp fee" "Compensation: debit clearing account"]

def buildReverseOnRampSteps (slug : String) : List Step :=
  [.reverseOnRamp ⟨t.id, t.tenantID, t.onRampProviderID, t.stableAmount, t.stableCoin, t.sourceCurrency, t.fxRate⟩,
    releaseStep t "compensation_reverse_onramp",
    reverseStep t slug "compensation-reverse-onramp" "Reverse on-ramp compensation"
      "Reverse on-ramp: credit crypto asset" "Reverse on-ramp: credit on-ramp fee"
      "Reverse on-ramp: debit clearing account"]

def buildCreditStablecoinSteps : List Step :=
  [.positionCredit ⟨t.id, t.tenantID, t.stableCoin, t.stableAmount⟩,
    releaseStep t "compensation_credit_stablecoin"]

def isAmbiguousState (completedSteps : List String) (ext : ExternalStatus) : Bool :=
  match t.status with
  | .onRamping => ¬ (ext.onRampStatus = "completed" ∨ ext.onRampStatus = "failed")
  | .settling =>
    if stepOnRampCompleted ∉ completedSteps then true
    else if ext.blockchainConfirmed ≠ none then false
    else if ext.blockchainError ≠ "" then false
    -- nothing is known of the blockchain, which makes no difference
    else false
  | _ => false

def emptyPlan (strategy : Strategy) : CompensationPlan where
  strategy := strategy
  transferID := t.id
  tenantID := t.tenantID
  refundAmount := 0
  refundCurrency := t.sourceCurrency
  fxLoss := 0
  steps := []
  transferStatus := t.status

def simpleRefundPlan (tenant : Tenant) : CompensationPlan :=
  { emptyPlan t .simpleRefund with
    refundAmount := t.sourceAmount
    steps := buildSimpleRefundSteps t tenant.slug }

def determineCompensation (tenant : Tenant) (completedSteps : List String) (ext : ExternalStatus) :
    CompensationPlan :=
  if isAmbiguousState t completedSteps ext then emptyPlan t .manualReview
  else if t.status = .onRamping ∧ ext.onRampStatus = "failed" then simpleRefundPlan t tenant
  else
    let hasOnRamp := stepOnRampCompleted ∈ completedSteps ∨ (t.status = .onRamping ∧ ext.onRampStatus = "completed")
    if ¬ hasOnRamp then simpleRefundPlan t tenant
    else if autoRefundCurrency tenant = "stablecoin" then
      { emptyPlan t .creditStablecoin with
        refundAmount := t.stableAmount
        refundCurrency := t.stableCoin
        steps := buildCreditStablecoinSteps t }
    else
      { emptyPlan t .reverseOnRamp with
        refundAmount := t.sourceAmount
        steps := buildReverseOnRampSteps t tenant.slug
        fxLoss := if 0 < ext.currentRate then estimateFXLoss t.stableAmount t.fxRate ext.currentRate else 0 }

/-! ## Execution -/

/-- `CompensationEngine`, over a state `σ`: a call for a tenant and a transfer. -/
def CompensationEngine (σ : Type) : Type := UUID → UUID → EngineCall → σ → EngineResult × σ

inductive ExecErr
  /-- "creating compensation record for transfer ..." -/
  | creatingRecord
  /-- "failing transfer before refund" -/
  | failingBeforeRefund (e : EngineErr)
  | engine (e : EngineErr)
  /-- "updating compensation record ..." -/
  | updatingRecord
  deriving DecidableEq

inductive RecordStatus
  | completed | failed | pendingReview
  deriving DecidableEq

structure RecordUpdate where
  (stepsCompleted stepsFailed : List String)
  fxLoss : Decimal
  status : RecordStatus

section

variable {σ : Type} (engine : CompensationEngine σ)

def callEngine (wrap : EngineErr → ExecErr) (plan : CompensationPlan) (call : EngineCall) (s : σ) :
    Except ExecErr Unit × σ :=
  match engine plan.tenantID plan.transferID call s with
  | (.ok (), s') => (.ok (), s')
  | (.error e, s') => (.error (wrap e), s')

variable (plan : CompensationPlan)

def executeSimpleRefund (s : σ) : Except ExecErr Unit × σ :=
  if plan.transferStatus ≠ .failed then
    match callEngine engine .failingBeforeRefund plan
      (.failTransfer "provider confirmed failure during compensation" "COMPENSATION_SIMPLE_REFUND") s with
    | (.error e, s') => (.error e, s')
    | (.ok (), s') => callEngine engine .engine plan .initiateRefund s'
  else callEngine engine .engine plan .initiateRefund s

def executeReverseOnRamp (s : σ) : Except ExecErr Unit × σ :=
  callEngine engine .engine plan
    (.failTransfer "off-ramp failed, reversing on-ramp" "COMPENSATION_REVERSE_ONRAMP") s

def executeCreditStablecoin (s : σ) : Except ExecErr Unit × σ :=
  callEngine engine .engine plan
    (.failTransfer "off-ramp failed, crediting stablecoin position" "COMPENSATION_CREDIT_STABLECOIN") s

/-- The steps that count as completed, and the one that counts as failed, by strategy. -/
def recordedSteps : Strategy → List String × List String
  | .simpleRefund => (["treasury.release", "ledger.reverse"], ["initiate_refund"])
  | .reverseOnRamp => (["provider.reverse_onramp", "treasury.release", "ledger.reverse"], ["reverse_onramp"])
  | .creditStablecoin => (["position.credit", "treasury.release"], ["credit_stablecoin"])
  | .manualReview => ([], [])

def executeStrategy (s : σ) : Except ExecErr Unit × σ :=
  match plan.strategy with
  | .simpleRefund => executeSimpleRefund engine plan s
  | .reverseOnRamp => executeReverseOnRamp engine plan s
  | .creditStablecoin => executeCreditStablecoin engine plan s
  | .manualReview => (.ok (), s)

def recordUpdate (result : Except ExecErr Unit) : RecordUpdate where
  stepsCompleted := match result with
    | .ok () => (recordedSteps plan.strategy).1
    | .error _ => []
  stepsFailed := match result with
    | .ok () => []
    | .error _ => (recordedSteps plan.strategy).2
  fxLoss := plan.fxLoss
  status :=
    if plan.strategy = .manualReview then .pendingReview
    else match result with
      | .ok () => .completed
      | .error _ => .failed

structure RecordAnswers where
  created : Bool
  updated : RecordUpdate → Bool

def execute (records : RecordAnswers) (plan : CompensationPlan) (s : σ) :
    Except ExecErr Unit × Option RecordUpdate × σ :=
  if ¬ records.created then (.error .creatingRecord, none, s)
  else
    let (result, s') := executeStrategy engine plan s
    let update := recordUpdate plan result
    match result with
    | .error e => (.error e, some update, s')
    | .ok () => if records.updated update then (.ok (), some update, s') else (.error .updatingRecord, some update, s')

end

/-! ## Two engines -/

/-- What one call of the engine meets, and how its transaction ends. -/
structure Turn where
  row : Option Transfer
  lookups : Lookups
  reply : Threads.Reply

/-- The turns to come, and what was committed. -/
structure Interleaved where
  turns : List Turn
  committed : List OutboxEntry

/-- The engine among other callers: each call meets the next turn. -/
def interleavedEngine : CompensationEngine Interleaved := fun tenantID _ call s =>
  match s.turns with
  | [] => (.error .transferNotFound, s)
  | turn :: turns =>
    match turn.row with
    | none => (.error .transferNotFound, ⟨turns, s.committed⟩)
    | some t =>
      if t.tenantID ≠ tenantID then (.error .transferNotFound, ⟨turns, s.committed⟩)
      else
        match call.plan turn.lookups t with
        | .refuse e => (.error e, ⟨turns, s.committed⟩)
        | .skip => (.ok (), ⟨turns, s.committed⟩)
        | .transition _ entries =>
          (if turn.reply = .ok then .ok () else .error .optimisticLock,
            ⟨turns, if turn.reply.applied then s.committed ++ entries else s.committed⟩)

def storeEngine (l : Lookups) : CompensationEngine Store := fun tenantID id call s =>
  let (s', r) := s.call id ⟨tenantID, l, call⟩
  (r, s')

end Settla.Compensation
