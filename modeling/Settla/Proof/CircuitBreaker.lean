import Settla.Lib.Run
import Settla.Resilience.CircuitBreaker

/-!
# The circuit breaker over all interleavings

A half-open breaker can get stuck exactly if it asks for more successes than it admits probes.
-/

namespace Settla.Resilience

open Lib

/-- The failures since the last success. -/
def failures : List (Event × State) → ℕ
  | [] => 0
  | (.success, _) :: _ => 0
  | (.failure _, _) :: log => failures log + 1
  | _ :: log => failures log

/-- The calls admitted since the half-open state was entered. -/
def probes : List (Event × State) → ℕ
  | (.admitted _, .halfOpen) :: log => probes log + 1
  | (_, .halfOpen) :: log => probes log
  | _ => 0

/-- When the last failure was recorded. -/
def lastFailure : List (Event × State) → Option Time
  | [] => none
  | (.failure t, _) :: _ => some t
  | _ :: log => lastFailure log

/-- What the counters say about the steps so far. In the half-open state every probe runs or was a success. -/
def Counted (c : Config) (w : Calls) : Prop :=
  w.breaker.consecutiveFailures = failures w.log ∧
  match w.breaker.state with
  | .closed => failures w.log < c.failureThreshold ∧ probes w.log = 0
  | .opened => lastFailure w.log = some w.breaker.lastFailureTime ∧ probes w.log = 0
  | .halfOpen =>
    probes w.log = w.breaker.halfOpenRequests ∧ w.breaker.halfOpenRequests ≤ c.halfOpenMaxRequests ∧
    w.breaker.consecutiveSuccess < c.successThreshold ∧
    w.breaker.halfOpenRequests ≤ w.breaker.consecutiveSuccess + w.inFlight

variable {c : Config}

open CircuitBreaker

theorem counted_step : ∀ (w : Calls) (i : Step), Counted c w → Counted c (w.step c i) := by
  rintro ⟨⟨s, fails, succ, requests, last⟩, n, log⟩ i ⟨hf, h⟩
  -- one case for each step in each state, and for each outcome of the test the code makes there
  cases s <;> cases i <;>
    simp only [Calls.step, allowRequest, currentStateLocked, transitionLocked, recordSuccess, recordFailure,
      reduceCtorEq, true_and, false_and, if_false] <;>
    (try split_ifs) <;> simp_all [Counted, failures, probes, lastFailure, Nat.one_le_iff_ne_zero] <;> omega

theorem counted (c : Config) (steps : List Step) : Counted c (run (Calls.step c) {} steps) :=
  run_invariant counted_step (by simp [Counted, failures, probes]) steps

theorem allowRequest_iff (cb : CircuitBreaker) (now : Time) : (cb.allowRequest c now).1 = true ↔
    match cb.state with
    | .closed => True
    | .opened => c.resetTimeout ≤ now - cb.lastFailureTime
    | .halfOpen => cb.halfOpenRequests < c.halfOpenMaxRequests := by
  obtain ⟨s, _, _, _, last⟩ := cb
  cases s with
  | closed => simp [allowRequest, currentStateLocked]
  | opened => by_cases ht : c.resetTimeout ≤ now - last <;> simp [allowRequest, currentStateLocked, transitionLocked, ht]
  | halfOpen => simp [allowRequest, currentStateLocked, apply_ite]

/-- A half-open breaker has seen the clock when the timeout had passed since the last failure. -/
def Elapsed (c : Config) (w : Calls) : Prop :=
  w.breaker.state = .halfOpen →
    lastFailure w.log = some w.breaker.lastFailureTime ∧
    ∃ e ∈ w.log, ∃ t ∈ e.1.time, c.resetTimeout ≤ t - w.breaker.lastFailureTime

/-- Only a step that reads the clock after the timeout takes a breaker out of the open state. -/
theorem step_opened (w : Calls) (i : Step) (hs : w.breaker.state = .opened) :
    (w.step c i).breaker.state = .opened ∨
    ∃ now, (i = .allow now ∨ i = .getState now) ∧ c.resetTimeout ≤ now - w.breaker.lastFailureTime := by
  obtain ⟨⟨s, _, _, _, last⟩, n, log⟩ := w
  cases hs
  cases i with
  | success => left; simp only [Calls.step, recordSuccess]; split_ifs <;> rfl
  | failure now => left; simp only [Calls.step, recordFailure]; split_ifs <;> rfl
  | allow now | getState now =>
    by_cases ht : c.resetTimeout ≤ now - last
    · right; simp [ht]
    · left; simp [Calls.step, allowRequest, currentStateLocked, ht]

theorem elapsed_step (w : Calls) (i : Step) (h : Counted c w ∧ Elapsed c w) :
    Counted c (w.step c i) ∧ Elapsed c (w.step c i) := by
  refine ⟨counted_step w i h.1, fun hs => ?_⟩
  obtain ⟨⟨s, _, _, _, last⟩, n, log⟩ := w
  obtain ⟨⟨-, hc⟩, he⟩ := h
  cases s <;> cases i <;>
    simp only [Calls.step, allowRequest, currentStateLocked, transitionLocked, recordSuccess, recordFailure,
      reduceCtorEq, true_and, false_and, if_false] at hs ⊢ <;>
    (try split_ifs at hs ⊢) <;> simp_all [Elapsed, lastFailure, Event.time]

/-- **The breaker is safe.** A closed one has seen fewer failures than the threshold since the last success, a
half-open one has admitted no more probes than allowed. As long as it is not closed, a call is admitted only when the
timeout has passed since the last failure, if the clock does not go back, and no step takes it out of the open state
before. -/
theorem breaker_safe (c : Config) (steps : List Step) :
    let w := run (Calls.step c) {} steps
    (w.breaker.state = .closed → failures w.log < c.failureThreshold) ∧
    probes w.log ≤ c.halfOpenMaxRequests ∧
    (∀ now, (∀ e ∈ w.log, ∀ t ∈ e.1.time, t ≤ now) → w.breaker.state ≠ .closed →
      (w.breaker.allowRequest c now).1 = true → ∃ t, lastFailure w.log = some t ∧ c.resetTimeout ≤ now - t) ∧
    ∀ i, w.breaker.state = .opened → (w.step c i).breaker.state ≠ .opened →
      ∃ now t, (i = .allow now ∨ i = .getState now) ∧ lastFailure w.log = some t ∧ c.resetTimeout ≤ now - t := by
  intro w
  obtain ⟨h, helapsed⟩ : Counted c w ∧ Elapsed c w :=
    run_invariant elapsed_step ⟨by simp [Counted, failures, probes], fun h => by cases h⟩ steps
  simp only [allowRequest_iff]
  cases hs : w.breaker.state <;> simp only [Counted, hs] at h
  · exact ⟨fun _ => h.2.1, by omega, fun _ _ hne => (hne rfl).elim, nofun⟩
  · refine ⟨nofun, by omega, fun now _ _ hok => ⟨_, h.2.1, hok⟩, fun i _ hleft => ?_⟩
    obtain hstays | ⟨now, hi, hok⟩ := step_opened w i hs
    · exact (hleft hstays).elim
    · exact ⟨now, _, hi, h.2.1, hok⟩
  · obtain ⟨hlast, e, he, t, ht, hok⟩ := helapsed hs
    exact ⟨nofun, by omega, fun now hclock _ _ => ⟨_, hlast, hok.trans (sub_le_sub_right (hclock e he t ht) _)⟩, nofun⟩

/-- No call runs, and the breaker has last failed at time zero. -/
def Idle (s : State) (requests success : ℕ) (w : Calls) : Prop :=
  w.inFlight = 0 ∧ lastFailure w.log = some 0 ∧ w.breaker.state = s ∧ w.breaker.halfOpenRequests = requests ∧
    w.breaker.consecutiveSuccess = success ∧ w.breaker.lastFailureTime = 0

/-- Calls that fail open a closed breaker. -/
theorem failures_open (n : ℕ) (w : Calls) (hidle : w.inFlight = 0) (hs : w.breaker.state = .closed)
    (hn : (c.failureThreshold : ℕ) ≤ w.breaker.consecutiveFailures + n) (hpos : 0 < n) :
    ∃ steps, Idle .opened 0 0 (run (Calls.step c) w steps) := by
  obtain ⟨⟨s, fails, succ, requests, last⟩, k, log⟩ := w
  cases hs
  cases hidle
  induction n generalizing fails succ requests last log with
  | zero => exact absurd hpos (lt_irrefl 0)
  | succ n ih =>
    by_cases hopen : (c.failureThreshold : ℕ) ≤ fails + 1
    · exact ⟨[.allow 0, .failure 0], by
        simp [Calls.step, allowRequest, currentStateLocked, recordFailure, transitionLocked, hopen, Idle, lastFailure]⟩
    · have hn : (c.failureThreshold : ℕ) ≤ fails + (n + 1) := hn
      have hrest : ∃ steps, Idle .opened 0 0 (run (Calls.step c)
          ⟨⟨.closed, fails + 1, 0, requests, 0⟩, 0, (.failure 0, .closed) :: (.admitted 0, .closed) :: log⟩ steps) := by
        apply ih
        · omega
        · show (c.failureThreshold : ℕ) ≤ fails + 1 + n
          omega
      obtain ⟨steps, hsteps⟩ := hrest
      refine ⟨.allow 0 :: .failure 0 :: steps, ?_⟩
      simpa [Calls.step, allowRequest, currentStateLocked, recordFailure, hopen] using hsteps

/-- As long as fewer probes than needed succeed, the breaker stays half-open. -/
theorem probes_used (hmax : (c.halfOpenMaxRequests : ℕ) < c.successThreshold) (n : ℕ) (hn : n < c.halfOpenMaxRequests)
    {w : Calls} (hw : Idle .opened 0 0 w) : ∃ steps, Idle .halfOpen (n + 1) (n + 1) (run (Calls.step c) w steps) := by
  induction n with
  | zero =>
    obtain ⟨⟨s, fails, succ, requests, last⟩, k, log⟩ := w
    obtain ⟨rfl, hlast, rfl, rfl, rfl, rfl⟩ := hw
    have hone : ¬ (c.successThreshold : ℕ) ≤ 1 := by omega
    exact ⟨[.allow c.resetTimeout, .success], by
      simp [Calls.step, allowRequest, currentStateLocked, recordSuccess, transitionLocked, Idle, hone, lastFailure, hlast]⟩
  | succ n ih =>
    obtain ⟨steps, hsteps⟩ := ih (by omega)
    refine ⟨steps ++ [.allow 0, .success], ?_⟩
    rw [run_append]
    generalize run (Calls.step c) w steps = w' at hsteps
    obtain ⟨⟨s, fails, succ, requests, last⟩, k, log⟩ := w'
    obtain ⟨rfl, hlast, rfl, rfl, rfl, rfl⟩ := hsteps
    have hmore : ¬ (c.successThreshold : ℕ) ≤ n + 1 + 1 := by omega
    simp [Calls.step, allowRequest, currentStateLocked, recordSuccess, Idle, hn, hmore, lastFailure, hlast]

/-- **The breaker does not get stuck exactly if it admits as many probes as it needs successes**: when no call runs and
the timeout has passed, the next one is admitted. -/
theorem breaker_admits (opts : List CBOption) :
    let c := newCircuitBreaker opts
    (∀ (steps : List Step) (now : Time), (run (Calls.step c) {} steps).inFlight = 0 →
      (∀ t, lastFailure (run (Calls.step c) {} steps).log = some t → c.resetTimeout ≤ now - t) →
      ((run (Calls.step c) {} steps).breaker.allowRequest c now).1 = true) ↔
      c.successThreshold ≤ c.halfOpenMaxRequests := by
  intro c
  constructor
  · intro hadmits
    by_contra hmax
    have hmax : (c.halfOpenMaxRequests : ℕ) < c.successThreshold := not_le.1 hmax
    have hpos := c.halfOpenMaxRequests.pos
    obtain ⟨steps, hopen⟩ := failures_open c.failureThreshold ({} : Calls) rfl rfl (Nat.le_add_left _ _) c.failureThreshold.pos
    obtain ⟨steps', hused⟩ := probes_used hmax (c.halfOpenMaxRequests - 1) (by omega) hopen
    rw [← run_append] at hused
    obtain ⟨hidle, hlast, hstate, hrequests, -⟩ := hused
    have hok := hadmits (steps ++ steps') c.resetTimeout hidle fun t ht => by
      rw [hlast] at ht
      cases ht
      simp
    rw [allowRequest_iff, hstate] at hok
    have hok : (run (Calls.step c) {} (steps ++ steps')).breaker.halfOpenRequests < c.halfOpenMaxRequests := hok
    omega
  · intro hmax steps now hidle hlast
    have h : Counted c (run (Calls.step c) {} steps) := counted c steps
    have hmax : (c.successThreshold : ℕ) ≤ c.halfOpenMaxRequests := hmax
    rw [allowRequest_iff]
    cases hs : (run (Calls.step c) {} steps).breaker.state <;> simp only [Counted, hs] at h ⊢
    · exact hlast _ h.2.1
    · omega

/-- The default options, after a call that failed. -/
theorem default_admits : ((run (Calls.step (newCircuitBreaker [])) {} [.allow 0, .failure 0]).breaker.allowRequest
    (newCircuitBreaker []) (20 * second)).1 = true :=
  (breaker_admits []).2 (by decide) [.allow 0, .failure 0] (20 * second) rfl (by decide)

/-- One probe and two successes needed: after a failure and a success the breaker is half-open for ever. -/
theorem probes_exhausted :
    let c := ProviderCBConfig.breaker { cbFailures := 1, cbResetMs := 1, cbHalfOpen := 1 }
    let w := run (Calls.step c) {} [.allow 0, .failure 0, .allow second, .success]
    w.inFlight = 0 ∧ lastFailure w.log = some 0 ∧ ∀ now, (w.breaker.allowRequest c now).1 = false :=
  ⟨rfl, rfl, fun _ => rfl⟩

end Settla.Resilience
