import Settla.Node.BlockchainWorker
import Settla.Node.ProviderWorker
import Settla.Rail.Blockchain

/-!
# What a call can come to

A bulkhead and a circuit breaker may turn a call away before it gets to the provider or chain.
`Happening` is what the environment does at a step, `Happening.answer` what the worker sees of it, and
`Heard` what is true of the provider by the history of a delivery.
-/

namespace Settla.Node

open Settla.Rail Lib.Threads

/-- What is between the worker and the provider at a call. -/
structure Guard where
  /-- the error of a context that is done -/
  ctxErr : Option String := none
  /-- all slots of the bulkhead are taken -/
  full : Bool := false
  circuitOpen : Bool := false

/-- `Bulkhead.Execute`, then `CircuitBreaker.Execute`: the error of a call that is turned
away. -/
def Guard.turnsAway (g : Guard) : Option ExecError :=
  match g.ctxErr with
  | some err => some ⟨.context, err⟩
  | none =>
    if g.full then some ⟨.bulkheadFull, "settla-resilience: bulkhead is full"⟩
    else if g.circuitOpen then some ⟨.circuitOpen, "settla-resilience: circuit breaker is open"⟩
    else none

inductive CallOutcome
  /-- it returns a transaction, with a status that has this meaning -/
  | returned (tx : ProviderTx) (verdict : Verdict)
  /-- it returns an error, which may be that of the context -/
  | erred (text : String) (context : Bool)

def CallOutcome.result : CallOutcome → Except ExecError ProviderTx
  | .returned tx _ => .ok tx
  | .erred text context => .error ⟨if context then .context else .provider, text⟩

structure Poll where
  (hash status : String)
  verdict : Verdict

/-- What the environment does at a step; each step meets its own part. -/
structure Happening where
  reply : Reply := .ok
  guard : Guard := {}
  outcome : CallOutcome := .erred "" false
  expired : Option Expiry := none
  polled : Option Poll := none
  mapFull : Bool := false

def Happening.answer (e : Happening) : Answer where
  reply := e.reply
  called :=
    match e.guard.turnsAway with
    | some err => .error err
    | none => e.outcome.result
  expired := e.expired
  polled := e.polled.map fun p => (p.hash, p.status)
  mapFull := e.mapFull

/-! ## The vocabularies -/

/-- The statuses that come back for a request, with their meanings. -/
def vocabulary : ProviderRequest → List (String × Verdict)
  | .onRamp _ _ _ _ _ =>
    [OnRampStatus.pending, .fiatCollected, .cryptoSent, .completed, .failed].map fun st => (st.string, st.verdict)
  | .offRamp _ _ _ _ _ _ _ =>
    [OffRampStatus.pending, .receiving, .received, .paying, .completed, .failed].map fun st => (st.string, st.verdict)
  | .send _ _ _ =>
    [(Ethereum.TxStatus.string .pending, .underway), (Tron.TxStatus.string .pending, .underway), ("submitted", .underway)]

def pollVocabulary : List (String × Verdict) :=
  [Ethereum.TxStatus.pending, .confirmed, .failed, .unknown].map (fun st => (st.string, st.verdict)) ++
    [Tron.TxStatus.pending, .confirming, .confirmed, .failed].map (fun st => (st.string, st.verdict)) ++
    [Solana.TxStatus.pending, .confirmed, .failed].map fun st => (st.string, st.verdict)

def CallOutcome.Genuine (request : ProviderRequest) : CallOutcome → Prop
  | .returned tx v => (tx.status, v) ∈ vocabulary request
  | .erred _ _ => True

instance (request : ProviderRequest) : ∀ o : CallOutcome, Decidable (o.Genuine request)
  | .returned tx v => inferInstanceAs (Decidable ((tx.status, v) ∈ vocabulary request))
  | .erred _ _ => .isTrue trivial

/-- The answers are those of the providers and clients of the repository. -/
def Genuine : Step × Happening → Prop
  | (.call _ request, e) => e.outcome.Genuine request
  | (.poll _, e) => ∀ p ∈ e.polled, (p.status, p.verdict) ∈ pollVocabulary
  | _ => True

instance (x : Step × Happening) : Decidable (Genuine x) := by unfold Genuine; split <;> infer_instance

/-! ## What is true of the provider -/

/-- The provider or chain of the delivery, whether it has finished and whether it has failed, and the
calls since the row was claimed. -/
structure Heard where
  named : String := ""
  finished : Bool := false
  failed : Bool := false
  attempts : ℕ := 0

/-- A provider says what came of the operation. -/
def Heard.hear (h : Heard) (v : Verdict) : Heard :=
  { h with finished := h.finished || v == .finished, failed := h.failed || v == .failed }

def Heard.next (h : Heard) : Step × Happening → Heard
  | (.claim provider, _) => ⟨provider, false, false, 0⟩
  | (.call _ _, e) =>
    let h' := { h with attempts := h.attempts + 1 }
    match e.guard.turnsAway with
    | some _ => h'
    | none =>
      match e.outcome with
      | .returned _ v => h'.hear v
      | .erred _ _ => { h' with failed := true }
  | (.poll _, e) =>
    match e.polled with
    | some p => h.hear p.verdict
    | none => h
  | _ => h

/-- A report of success needs a provider that has finished; a report of failure one that is not
configured or has failed. -/
def Truthful (configured : List String) (h : Heard) : Step → Prop
  | .report r => if r.success then h.finished = true else h.named ∉ configured ∨ h.failed = true
  | _ => True

instance (configured : List String) (h : Heard) : ∀ g, Decidable (Truthful configured h g)
  | .report r =>
    inferInstanceAs (Decidable (if r.success then h.finished = true else h.named ∉ configured ∨ h.failed = true))
  | .claim _ | .call _ _ | .switchRoute | .record _ | .inspect | .poll _ | .track _ => .isTrue trivial

end Settla.Node
