import Settla.Node.ProviderTx

/-!
# The provider worker

`handleOnRamp` and `handleOffRamp` are the loop `executeRamp`: claim the row, call the provider with
retries, record and report. When a provider fails and the intent has alternatives, the route is
switched, which deletes the row.
-/

namespace Settla.Node

open Settla.Core

def shouldRetryProviderError (e : ExecError) : Bool :=
  match e.fault with
  | .circuitOpen => false
  | .context => false
  | _ => true

def maxAttempts : ℕ := 3

def retryCancelled (op point ctxErr : String) : ExecError :=
  ⟨.context, "settla-resilience: retry " ++ op ++ " cancelled " ++ point ++ ": " ++ ctxErr⟩

def retryExhausted (op : String) (e : ExecError) : ExecError :=
  { e with text := "settla-resilience: retry " ++ op ++ " exhausted after " ++ toString maxAttempts ++
      " attempts: " ++ e.text }

/-- The body of the loop of `resilience.Retry`, after attempt `n`: what is returned, or
`none` for another attempt. -/
def retryVerdict (op : String) (n : ℕ) (a : Answer) : Option (Except ExecError ProviderTx) :=
  match a.called with
  | .ok tx => some (.ok tx)
  | .error e =>
    if !shouldRetryProviderError e then some (.error e)
    else
      match a.expired with
      | some (.afterAttempt ctxErr) => some (.error (retryCancelled op ("after attempt " ++ toString n) ctxErr))
      | some (.duringBackoff ctxErr) =>
        -- no sleep follows the last attempt
        some (.error (if n = maxAttempts then retryExhausted op e else retryCancelled op "during backoff" ctxErr))
      | none => if n = maxAttempts then some (.error (retryExhausted op e)) else none

/-- `resilience.Retry` around a provider call, with `more` attempts left after this one. -/
def retryCall (op provider : String) (request : ProviderRequest) (k : Except ExecError ProviderTx → Handler) :
    ℕ → Handler
  | 0 => callThen provider request fun a => k ((retryVerdict op maxAttempts a).getD a.called)
  | more + 1 => callThen provider request fun a =>
    match retryVerdict op (maxAttempts - (more + 1)) a with
    | some result => k result
    | none => retryCall op provider request k more

/-- What a fallback changes: the provider, the request and the transfer's route. -/
structure Fallback where
  provider : String
  request : ProviderRequest
  route : TransferRoute

structure Ramp where
  /-- the configured providers -/
  providers : List String
  /-- name of the retried operation, before the provider -/
  operation : String
  /-- text for a provider that is not configured, before its ID -/
  unknown : String
  /-- the result of a finished transaction -/
  result : ProviderTx → IntentResult

def finishCall (w : Ramp) (fallback : ExecError → Handler) : Except ExecError ProviderTx → Handler
  | .ok tx => recordThen tx (if tx.status = "pending" then .ret .ack else report (w.result tx))
  -- the message comes back, but the row stays
  | .error e => if e.fault = .circuitOpen then .ret .nak else fallback e

def rampRound (w : Ramp) (provider : String) (request : ProviderRequest) (fallback : ExecError → Handler) : Handler :=
  claimThen provider (.ret .nak)
    (if provider ∈ w.providers then
      retryCall (w.operation ++ provider) provider request (finishCall w fallback) (maxAttempts - 1)
    else reportFailure (w.unknown ++ provider))
    (.ret .ack)

def executeRamp (w : Ramp) (provider : String) (request : ProviderRequest) : List Fallback → Handler
  | [] => rampRound w provider request fun e => reportFailure e.text
  | alt :: remaining => rampRound w provider request fun e =>
    .act .switchRoute (fun a s => if a.reply.applied then (switchRoute alt.route s).getD s else s) fun a s =>
      match if a.reply = .ok then switchRoute alt.route s else none with
      | some _ => executeRamp w alt.provider alt.request remaining
      | none => reportFailure e.text

/-- **No fallback is reached**: the switch of the route fails, and the failure of the provider is reported. -/
theorem executeRamp_cons (w : Ramp) (provider : String) (request : ProviderRequest) (alt : Fallback)
    (remaining : List Fallback) :
    executeRamp w provider request (alt :: remaining) = rampRound w provider request fun e =>
      .act .switchRoute (fun _ s => s) fun _ _ => reportFailure e.text := by
  simp [executeRamp]

variable (providers : List String)

def onRamp : Ramp where
  providers := providers
  operation := "provider-onramp-"
  unknown := "unknown on-ramp provider: "
  result tx := ⟨true, tx.txHash, ""⟩

/-- The off-ramp loop; its result carries no transaction hash. -/
def offRamp : Ramp where
  providers := providers
  operation := "provider-offramp-"
  unknown := "unknown off-ramp provider: "
  result _ := ⟨true, "", ""⟩

def ProviderOnRampPayload.request (p : ProviderOnRampPayload) (toCurrency : Currency) : ProviderRequest :=
  .onRamp p.amount p.fromCurrency toCurrency p.reference p.quotedRate

def ProviderOffRampPayload.request (p : ProviderOffRampPayload) : ProviderRequest :=
  .offRamp p.amount p.fromCurrency p.toCurrency p.recipient p.reference p.quotedRate p.sourceTxHash

def handleOnRamp (p : ProviderOnRampPayload) : Handler :=
  executeRamp (onRamp providers) p.providerID (ProviderOnRampPayload.request p p.toCurrency) <|
    p.alternatives.map fun alt =>
      -- the fallback changes the stablecoin, not the amount
      ⟨alt.providerID, ProviderOnRampPayload.request p alt.stableCoin,
        ⟨alt.providerID, alt.offRampProvider, alt.chain, alt.stableCoin⟩⟩

def handleOffRamp (p : ProviderOffRampPayload) : Handler :=
  executeRamp (offRamp providers) p.providerID (ProviderOffRampPayload.request p) <|
    p.alternatives.map fun alt =>
      ⟨alt.providerID, ProviderOffRampPayload.request p, ⟨"", alt.providerID, "", ""⟩⟩

end Settla.Node
