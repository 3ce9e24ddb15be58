import Settla.Node.ProviderTx

/-!
# Inbound provider webhooks

A webhook arrives normalized, or raw; a raw one is stored in a log and normalized first. Both then look the
provider transaction up, update it and hand the result to the engine. An error sends the message back.
What the engine said to each result is kept in `verdicts`.
-/

namespace Settla.Node.Inbound

open Settla.Core Lib Lib.Threads

/-! ## Messages -/

inductive TxType
  | onRamp | offRamp
  deriving DecidableEq

def TxType.string : TxType → String
  | .onRamp => "onramp"
  | .offRamp => "offramp"

def isTerminal (status : String) : Bool := status == "completed" || status == "confirmed" || status == "failed"

/-- `ProviderWebhookPayload`, without the error code, which the engine does not read. -/
structure ProviderWebhookPayload where
  (transferID tenantID : UUID)
  (providerID providerRef status txHash error txType : String)

structure RawWebhookPayload where
  (providerSlug rawBody idempotencyKey : String)

inductive LogStatus
  | received | processed | skipped | failed | duplicate
  deriving DecidableEq

/-- A row of `provider_webhook_logs`. -/
structure LogEntry where
  (providerSlug idempotencyKey : String)
  createdAt : Time
  status : LogStatus

inductive Verdict
  /-- it has moved the transfer -/
  | accepted
  /-- the transfer has left the step -/
  | late
  /-- any other error -/
  | refused
  deriving DecidableEq

/-! ## The state -/

/-- One transfer with everything a webhook for it meets. An entry of the log is known by its place. -/
structure Inbox where
  rows : TxType → Option ProviderTx
  log : List LogEntry
  transfer : Transfer
  verdicts : List (IntentResult × Verdict)

variable (s : Inbox)

variable (kind : TxType)

variable (p : ProviderWebhookPayload)

def Inbox.getProviderTransaction : Option ProviderTx :=
  if p.transferID = s.transfer.id ∧ p.tenantID = s.transfer.tenantID then s.rows kind else none

def Inbox.updatable : Bool := (s.rows kind).any fun tx => !tx.terminal

def Inbox.updateProviderTransaction (tx : ProviderTx) : Inbox :=
  if s.updatable kind then { s with rows := Function.update s.rows kind (some tx) } else s

/-- The conflict of `InsertProviderWebhookLog`: the time belongs to the key. -/
def Inbox.stored (raw : RawWebhookPayload) (now : Time) : Bool :=
  s.log.any fun e => e.providerSlug = raw.providerSlug ∧ e.idempotencyKey = raw.idempotencyKey ∧ e.createdAt = now

def Inbox.insertRaw (raw : RawWebhookPayload) (now : Time) : Inbox :=
  if s.stored raw now then s
  else { s with log := s.log ++ [⟨raw.providerSlug, raw.idempotencyKey, now, .received⟩] }

def Inbox.checkDuplicate (raw : RawWebhookPayload) : Bool :=
  s.log.any fun e => e.providerSlug = raw.providerSlug ∧ e.idempotencyKey = raw.idempotencyKey ∧ e.status = .processed

def Inbox.markProcessed (id : ℕ) (status : LogStatus) : Inbox :=
  { s with log := s.log.modify id fun e => { e with status := status } }

/-! ## The engine -/

/-- The environment's answer to a step; each step reads its own part. -/
structure Answer where
  /-- to a store or engine call -/
  reply : Reply := .ok
  /-- the time of the database -/
  now : Time := 0
  /-- what the engine finds in the other stores -/
  lookups : Lookups := ⟨fun _ _ => none, fun _ => none⟩
  /-- what the engine has been asked to do by others in the meantime -/
  others : List Invocation := []

def TxType.call : TxType → IntentResult → EngineCall
  | .onRamp, r => .handleOnRampResult r
  | .offRamp, r => .handleOffRampResult r

def TxType.step : TxType → TransferStatus
  | .onRamp => .onRamping
  | .offRamp => .offRamping

/-- The transfer has left the step: it is neither in it nor on the way to it. -/
def TxType.left : TxType → TransferStatus → Bool
  | .onRamp, st => st ∉ [.created, .funded, .onRamping]
  | .offRamp, st => st ∉ [.created, .funded, .onRamping, .settling, .offRamping]

def served (t : Transfer) (inv : Invocation) : Transfer :=
  if t.tenantID ≠ inv.tenantID then t
  else
    match inv.call.plan inv.lookups t with
    | .transition st _ => t.advance st
    | _ => t

/-- `HandleOnRampResult` or `HandleOffRampResult`: the row, the verdict, and whether no error is returned. -/
def handleResult (r : IntentResult) (a : Answer) (t : Transfer) :
    Transfer × Verdict × Bool :=
  let t := run served t a.others
  if a.reply = .error then (t, .refused, false)
  else if ¬ (p.transferID = t.id ∧ p.tenantID = t.tenantID) then (t, .refused, false)
  else
    match (kind.call r).plan a.lookups t with
    | .transition st _ => (t.advance st, .accepted, a.reply = .ok)
    | .skip => (t, .late, a.reply = .ok)
    | .refuse _ => (t, if kind.left t.status then .late else .refused, false)

/-! ## The worker -/

inductive Step
  | insertRaw (raw : RawWebhookPayload)
  | checkDuplicate (raw : RawWebhookPayload)
  | markProcessed (id : ℕ) (status : LogStatus)
  | lookup (kind : TxType) (p : ProviderWebhookPayload)
  | update (kind : TxType) (p : ProviderWebhookPayload) (tx : ProviderTx)
  | engine (kind : TxType) (p : ProviderWebhookPayload) (r : IntentResult)

abbrev Handler := Prog Inbox Answer Step Delivery

/-- The result of a status, if it is one of the three that are final. -/
def ProviderWebhookPayload.result : Option IntentResult :=
  if p.status = "completed" ∨ p.status = "confirmed" then some ⟨true, p.txHash, ""⟩
  else if p.status = "failed" then some ⟨false, "", p.error⟩
  else none

def report : Handler :=
  match p.result with
  -- "unexpected status, skipping"
  | none => .ret .ack
  | some r =>
    .act (.engine kind p r)
      (fun a s =>
        let (t, verdict, _) := handleResult kind p r a s.transfer
        { s with transfer := t, verdicts := s.verdicts ++ [(r, verdict)] })
      fun a s => if (handleResult kind p r a s.transfer).2.2 then .ret .ack else .ret .nak

def merged (existing : ProviderTx) (p : ProviderWebhookPayload) : ProviderTx :=
  ⟨orKeep p.providerRef existing.externalID, p.status, orKeep p.txHash existing.txHash⟩

/-- Write it back. A conflict ends the delivery, any other error does not. -/
def updateThen (tx : ProviderTx) : Handler :=
  .act (.update kind p tx) (fun a s => if a.reply.applied then s.updateProviderTransaction kind tx else s) fun a s =>
    if a.reply = .ok ∧ ¬ s.updatable kind then .ret .ack else report kind p

/-- `processNormalizedOnRamp` and `processNormalizedOffRamp`. -/
def processNormalized : Handler :=
  .act (.lookup kind p) (fun _ s => s) fun a s =>
    match a.reply with
    | .ok =>
      match s.getProviderTransaction kind p with
      | none => .ret .ack
      | some existing => if isTerminal existing.status then .ret .ack else updateThen kind p (merged existing p)
    | _ => .ret .nak

def processPayload : Handler :=
  if p.txType = TxType.onRamp.string then processNormalized .onRamp p
  else if p.txType = TxType.offRamp.string then processNormalized .offRamp p
  else .ret .ack

def markThen (id : ℕ) (status : LogStatus) (next : Handler) : Handler :=
  .act (.markProcessed id status) (fun a s => if a.reply.applied then s.markProcessed id status else s) fun _ _ => next

/-- `NormalizerLookup`: for a provider, what it makes of a body. -/
abbrev Normalizers := String → Option (String → String → Except String (Option ProviderWebhookPayload))

variable (normalizers : Normalizers)

/-- Steps 3 to 6 of `handleRawWebhook`: normalize, mark the entry, then process. -/
def normalizeThen (raw : RawWebhookPayload) (id : ℕ) : Handler :=
  match normalizers raw.providerSlug with
  | none => markThen id .failed (.ret .ack)
  | some normalize =>
    match normalize raw.providerSlug raw.rawBody with
    | .error _ => markThen id .failed (.ret .ack)
    | .ok none => markThen id .skipped (.ret .ack)
    | .ok (some p) => markThen id .processed (processPayload p)

/-- `handleRawWebhook`, with its normalizers and the log configured. -/
def handleRawWebhook (raw : RawWebhookPayload) : Handler :=
  .act (.insertRaw raw) (fun a s => if a.reply.applied then s.insertRaw raw a.now else s) fun a s =>
    match a.reply with
    | .ok =>
      if s.stored raw a.now then .ret .ack
      else
        .act (.checkDuplicate raw) (fun _ s => s) fun b s' =>
          -- a check that fails is taken for none
          if b.reply = .ok ∧ s'.checkDuplicate raw then markThen s.log.length .duplicate (.ret .ack)
          else normalizeThen normalizers raw s.log.length
    | _ => .ret .nak

inductive Message
  | raw (raw : RawWebhookPayload)
  | onRamp (p : ProviderWebhookPayload)
  | offRamp (p : ProviderWebhookPayload)

def handleEvent : Message → Handler
  | .raw raw => handleRawWebhook normalizers raw
  | .onRamp p => processNormalized .onRamp p
  | .offRamp p => processNormalized .offRamp p

end Settla.Node.Inbound
