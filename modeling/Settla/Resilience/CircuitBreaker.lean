import Settla.Treasury.Machine

/-!
# The circuit breaker of calls to other systems

`Execute` is two steps under the mutex with the call between them, so the steps of concurrent calls
interleave.
-/

namespace Settla.Resilience

open Treasury (wrap64)

/-- Calls pass, are refused, or are probes. -/
inductive State
  | closed | opened | halfOpen
  deriving DecidableEq

/-- The settings, which the options keep positive. -/
structure Config where
  failureThreshold : ℕ+ := 5
  resetTimeout : Time := 10 * second
  halfOpenMaxRequests : ℕ+ := 3
  successThreshold : ℕ+ := 2

/-- The options of `NewCircuitBreaker`. -/
inductive CBOption
  | withFailureThreshold (n : ℤ)
  | withResetTimeout (d : Time)
  | withHalfOpenMax (n : ℤ)
  | withSuccessThreshold (n : ℤ)

/-- An option with a value that is not positive has no effect. -/
def CBOption.apply (c : Config) : CBOption → Config
  | .withFailureThreshold n => if 0 < n then { c with failureThreshold := n.toNat.toPNat' } else c
  | .withResetTimeout d => if 0 < d then { c with resetTimeout := d } else c
  | .withHalfOpenMax n => if 0 < n then { c with halfOpenMaxRequests := n.toNat.toPNat' } else c
  | .withSuccessThreshold n => if 0 < n then { c with successThreshold := n.toNat.toPNat' } else c

/-- `NewCircuitBreaker`, as the settings it ends up with. -/
def newCircuitBreaker (opts : List CBOption) : Config := opts.foldl CBOption.apply {}

/-- The settings of the provider worker, with their defaults. -/
structure ProviderCBConfig where
  cbFailures : ℤ := 15
  cbResetMs : ℤ := 10000
  cbHalfOpen : ℤ := 2

/-- The breaker `NewProviderWorker` creates for a provider. -/
def ProviderCBConfig.breaker (cfg : ProviderCBConfig) : Config :=
  newCircuitBreaker [.withFailureThreshold cfg.cbFailures, .withResetTimeout (wrap64 (cfg.cbResetMs * 1000000)),
    .withHalfOpenMax cfg.cbHalfOpen]

/-- The fields under the mutex. -/
structure CircuitBreaker where
  state : State := .closed
  (consecutiveFailures consecutiveSuccess halfOpenRequests : ℕ := 0)
  lastFailureTime : Time := 0

namespace CircuitBreaker

variable (c : Config) (cb : CircuitBreaker) (now : Time)

/-- A change of state gives the probe slots back. -/
def transitionLocked (next : State) : CircuitBreaker :=
  if cb.state = next then cb else { cb with state := next, halfOpenRequests := 0, consecutiveSuccess := 0 }

/-- An open breaker turns half-open when the timeout has passed. -/
def currentStateLocked : CircuitBreaker :=
  if cb.state = .opened ∧ c.resetTimeout ≤ now - cb.lastFailureTime then cb.transitionLocked .halfOpen else cb

/-- Whether a call is admitted. A probe takes a slot. -/
def allowRequest : Bool × CircuitBreaker :=
  let cb := cb.currentStateLocked c now
  match cb.state with
  | .closed => (true, cb)
  | .opened => (false, cb)
  | .halfOpen =>
    if cb.halfOpenRequests < c.halfOpenMaxRequests then
      (true, { cb with halfOpenRequests := cb.halfOpenRequests + 1 })
    else (false, cb)

/-- A successful call. Enough probes close the breaker. -/
def recordSuccess : CircuitBreaker :=
  let cb := { cb with consecutiveFailures := 0 }
  match cb.state with
  | .halfOpen =>
    let cb := { cb with consecutiveSuccess := cb.consecutiveSuccess + 1 }
    if (c.successThreshold : ℕ) ≤ cb.consecutiveSuccess then cb.transitionLocked .closed else cb
  | _ => cb

/-- A failed call. One failed probe opens the breaker again. -/
def recordFailure : CircuitBreaker :=
  let cb := { cb with
    consecutiveFailures := cb.consecutiveFailures + 1
    consecutiveSuccess := 0
    lastFailureTime := now }
  match cb.state with
  | .closed => if (c.failureThreshold : ℕ) ≤ cb.consecutiveFailures then cb.transitionLocked .opened else cb
  | .halfOpen => cb.transitionLocked .opened
  | .opened => cb

end CircuitBreaker

/-! ## Concurrent calls -/

/-- A step under the mutex: the admission of a call of `Execute`, the record of its result, or `GetState`. -/
inductive Step
  | allow (now : Time)
  | success
  | failure (now : Time)
  | getState (now : Time)

/-- What a step did, and what it read from the clock. -/
inductive Event
  | admitted (t : Time)
  | refused (t : Time)
  | success
  | failure (t : Time)
  | read (t : Time)

/-- What the step read from the clock. A success reads none. -/
def Event.time : Event → Option Time
  | .success => none
  | .admitted t | .refused t | .failure t | .read t => some t

/-- A breaker, how many calls run, and the steps so far, the latest first, each with the state it left. -/
structure Calls where
  breaker : CircuitBreaker := {}
  inFlight : ℕ := 0
  log : List (Event × State) := []

/-- A step. A result is recorded only for a call that runs. -/
def Calls.step (c : Config) (w : Calls) : Step → Calls
  | .allow now =>
    let (ok, cb) := w.breaker.allowRequest c now
    ⟨cb, w.inFlight + ok.toNat, (if ok then .admitted now else .refused now, cb.state) :: w.log⟩
  | .success =>
    if w.inFlight = 0 then w else
      let cb := w.breaker.recordSuccess c
      ⟨cb, w.inFlight - 1, (.success, cb.state) :: w.log⟩
  | .failure now =>
    if w.inFlight = 0 then w else
      let cb := w.breaker.recordFailure c now
      ⟨cb, w.inFlight - 1, (.failure now, cb.state) :: w.log⟩
  | .getState now =>
    let cb := w.breaker.currentStateLocked c now
    ⟨cb, w.inFlight, (.read now, cb.state) :: w.log⟩

end Settla.Resilience
