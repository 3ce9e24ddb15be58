import Settla.Core.Engine
import Settla.Lib.Claim

/-!
# Provider transactions

`provider_tx_adapter.go` for one transfer and one type: the row that workers claim before they call a
provider (at most one), the route of the transfer, and the answers a worker can get. A lost `Reply` is a
connection that broke after the commit.
-/

namespace Settla.Node

open Settla.Core Lib.Threads

structure ProviderTx where
  (externalID status txHash : String)
  deriving DecidableEq

structure ProviderRow where
  provider : String
  tx : ProviderTx

/-- The columns of `transfers` that `UpdateTransferRoute` writes. -/
structure TransferRoute where
  (onRampProvider offRampProvider : String)
  chain : CryptoChain
  stableCoin : Currency

def routeOf (t : Transfer) : TransferRoute := ⟨t.onRampProviderID, t.offRampProviderID, t.chain, t.stableCoin⟩

/-- The transfer with these columns written. The amounts and the quote stay. -/
def withRoute (t : Transfer) (r : TransferRoute) : Transfer :=
  { t with onRampProviderID := r.onRampProvider, offRampProviderID := r.offRampProvider, chain := r.chain
           stableCoin := r.stableCoin }

inductive ProviderRequest
  | onRamp (amount : Decimal) (fromCurrency toCurrency : Currency) (reference : String) (quotedRate : Decimal)
  | offRamp (amount : Decimal) (fromCurrency toCurrency : Currency) (recipient : Recipient) (reference : String)
      (quotedRate : Decimal) (sourceTxHash : String)
  | send (token : String) (amount : Decimal) (memo : String)

structure ProviderCall where
  provider : String
  request : ProviderRequest
  tx : ProviderTx

/-- What the deliveries of one intent share: the row, the route, the calls that returned without
error, the results the engine accepted, and the entry in `pendingTxMap`. -/
structure Execution where
  row : Option ProviderRow
  route : TransferRoute
  executed : List ProviderCall
  accepted : List IntentResult
  tracked : Option String

def Execution.init (route : TransferRoute) : Execution := ⟨none, route, [], [], none⟩

/-- Why a guarded provider call gave no transaction. -/
inductive ExecFault
  /-- `resilience.ErrCircuitOpen` -/
  | circuitOpen
  /-- `resilience.ErrBulkheadFull` -/
  | bulkheadFull
  /-- `context.Canceled` or `context.DeadlineExceeded` -/
  | context
  /-- the provider returned an error -/
  | provider
  deriving DecidableEq

structure ExecError where
  fault : ExecFault
  text : String

/-- When the time budget of a retried call ran out, with the context's error. -/
inductive Expiry
  | afterAttempt (ctxErr : String)
  | duringBackoff (ctxErr : String)

/-- The environment's answer to a step; each step reads its own part. -/
structure Answer where
  /-- to a store or engine call -/
  reply : Reply := .ok
  /-- to a call of the provider or chain, with its circuit breaker and bulkhead -/
  called : Except ExecError ProviderTx := .error ⟨.provider, ""⟩
  /-- to the same call, when its time budget is used up -/
  expired : Option Expiry := none
  /-- to `GetTransaction`: the hash and the status, or an error -/
  polled : Option (String × String) := none
  /-- whether `pendingTxMap` is at its capacity -/
  mapFull : Bool := false

inductive Step
  | claim (provider : String)
  | call (provider : String) (request : ProviderRequest)
  | switchRoute
  | record (tx : ProviderTx)
  | report (result : IntentResult)
  | inspect
  | poll (txHash : String)
  | track (txHash : String)

inductive Delivery
  | ack | nak
  deriving DecidableEq

abbrev Handler := Prog Execution Answer Step Delivery

/-! ## The store -/

variable (provider : String)

/-- `ClaimProviderTransaction`: `INSERT … ON CONFLICT DO NOTHING`. -/
def claimProviderTransaction (s : Execution) : Execution :=
  match s.row with
  | none => { s with row := some ⟨provider, ⟨"", "claiming", ""⟩⟩ }
  | some _ => s

/-- The rows `UpdateProviderTransaction` does not touch any more. -/
def ProviderTx.terminal (tx : ProviderTx) : Bool := tx.status == "completed" || tx.status == "confirmed"

def updateProviderTransaction (tx : ProviderTx) (s : Execution) : Execution :=
  match s.row with
  | some r => if r.tx.terminal then s else { s with row := some { r with tx := tx } }
  | none => s

/-- The columns of the table `transfers`. -/
def transfersTable : List String :=
  ["id", "tenant_id", "external_ref", "idempotency_key", "status", "version", "source_currency", "source_amount",
    "dest_currency", "dest_amount", "stable_coin", "stable_amount", "chain", "fx_rate", "fees",
    "fee_schedule_snapshot", "sender", "recipient", "quote_id", "on_ramp_provider_id", "off_ramp_provider_id",
    "pii_encryption_version", "created_at", "updated_at", "funded_at", "completed_at", "failed_at",
    "failure_reason", "failure_code"]

def orKeep (new old : String) : String := if new = "" then old else new

/-- `UpdateTransferRoute`: an empty value leaves its column unchanged. A statement that names a column the table
does not have is refused. -/
def updateTransferRoute (new old : TransferRoute) : Option TransferRoute :=
  if ["on_ramp_provider_id", "off_ramp_provider_id", "chain", "stablecoin", "updated_at", "id"] ⊆ transfersTable then
    some ⟨orKeep new.onRampProvider old.onRampProvider, orKeep new.offRampProvider old.offRampProvider,
      orKeep new.chain old.chain, orKeep new.stableCoin old.stableCoin⟩
  else none

/-- `SwitchRoute`: deletes the row and updates the route in one transaction, which a refused update rolls back. -/
def switchRoute (new : TransferRoute) (s : Execution) : Option Execution :=
  (updateTransferRoute new s.route).map fun route => { s with row := none, route := route }

/-- The column of the stablecoin is `stable_coin`. -/
@[simp] theorem updateTransferRoute_refused (new old : TransferRoute) : updateTransferRoute new old = none :=
  if_neg (by decide)

@[simp] theorem switchRoute_refused (new : TransferRoute) (s : Execution) : switchRoute new s = none := by
  simp [switchRoute]

/-- `trackPending`: an entry that exists stays, a full map takes no new one. -/
def trackPending (full : Bool) (txHash : String) (s : Execution) : Execution :=
  if full then s else { s with tracked := s.tracked.or (some txHash) }

/-! ## Steps as programs -/

/-- Claim the row, then go on: with an error, with the row, or finding it taken. -/
def claimThen (failed won taken : Handler) : Handler :=
  .act (.claim provider)
    (fun a s => if a.reply.applied then claimProviderTransaction provider s else s)
    fun a s =>
      match a.reply with
      | .ok => if s.row.isNone then won else taken
      | _ => failed

/-- Update the row; the workers go on whatever the store says. -/
def recordThen (tx : ProviderTx) (next : Handler) : Handler :=
  .act (.record tx) (fun a s => if a.reply.applied then updateProviderTransaction tx s else s) fun _ _ => next

def report (result : IntentResult) : Handler :=
  .act (.report result) (fun a s => if a.reply.applied then { s with accepted := s.accepted ++ [result] } else s)
    fun a _ =>
      match a.reply with
      | .ok => .ret .ack
      | _ => .ret .nak

/-- One call of a provider or chain client, through its bulkhead and circuit breaker. -/
def callThen (request : ProviderRequest) (k : Answer → Handler) : Handler :=
  .act (.call provider request)
    (fun a s =>
      match a.called with
      | .ok tx => { s with executed := s.executed ++ [⟨provider, request, tx⟩] }
      | .error _ => s)
    fun a _ => k a

def failedTx : ProviderTx := ⟨"", "failed", ""⟩

def reportFailure (error : String) : Handler := recordThen failedTx (report ⟨false, "", error⟩)

end Settla.Node
