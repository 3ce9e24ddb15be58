import Settla.Lib.Checks
import Settla.Node.Outcomes
import Settla.Proof.Provider

/-!
# Truthful results

The provider worker takes every status but `pending` for success, and the providers write theirs in
capitals; the blockchain worker takes all but `pending` and `confirmed` for a failure, and Solana says
`submitted`. A call turned away by the bulkhead is reported as a failure of the provider.
-/

namespace Settla.Node

open Settla.Core Settla.Rail Lib Lib.Threads List

/-! ## Fair steps -/

/-- A ramp takes what is not `pending` for success, a send what is neither `pending` nor `confirmed`
for a failure. -/
def Classified (status : String) (v : Verdict) : ProviderRequest → Prop
  | .send _ _ _ =>
    toLower status = "pending" ∨ v = if toLower status = "confirmed" then .finished else .failed
  | _ => status = "pending" ∨ v = .finished

/-- A ramp asks again after a call that a full bulkhead turned away, unless the attempts or
the time are used up. -/
def Retried (h : Heard) (e : Happening) (err : ExecError) : ProviderRequest → Prop
  | .send _ _ _ => False
  | _ => err.fault = .bulkheadFull ∧ e.expired = none ∧ h.attempts + 1 < maxAttempts

/-- A call that is turned away is not the last word on a provider that has not failed: the circuit
is open, or the call is made again. -/
def FairRefusal (h : Heard) (e : Happening) (request : ProviderRequest) (err : ExecError) : Prop :=
  err.fault = .circuitOpen ∨ h.failed = true ∨ Retried h e err request

/-- A call that is made must come to something the worker understands. -/
def FairOutcome (request : ProviderRequest) : CallOutcome → Prop
  | .returned tx v => Classified tx.status v request
  | .erred _ _ => True

/-- What the environment may do at a step. -/
def Fair (h : Heard) : Step × Happening → Prop
  | (.call _ request, e) =>
    (∀ err ∈ e.guard.turnsAway, FairRefusal h e request err) ∧
      (e.guard.turnsAway = none → FairOutcome request e.outcome)
  | _ => True

section Decidable

instance (status : String) (v : Verdict) (request : ProviderRequest) : Decidable (Classified status v request) := by
  cases request <;> unfold Classified <;> infer_instance

instance (h : Heard) (e : Happening) (err : ExecError) (request : ProviderRequest) :
    Decidable (Retried h e err request) := by
  cases request <;> unfold Retried <;> infer_instance

instance (h : Heard) (e : Happening) (request : ProviderRequest) (err : ExecError) :
    Decidable (FairRefusal h e request err) :=
  inferInstanceAs (Decidable (_ ∨ _))

instance (request : ProviderRequest) (o : CallOutcome) : Decidable (FairOutcome request o) := by
  cases o <;> unfold FairOutcome <;> infer_instance

instance (h : Heard) : ∀ x, Decidable (Fair h x)
  | (.call _ _, _) => inferInstanceAs (Decidable (_ ∧ _))
  | (.claim _, _) | (.switchRoute, _) | (.record _, _) | (.report _, _) | (.inspect, _)
  | (.poll _, _) | (.track _, _) => .isTrue trivial

end Decidable

theorem fair_refused {h : Heard} {request : ProviderRequest} (hg : e.guard.turnsAway = some err) :
    Fair h (.call provider request, e) ↔ FairRefusal h e request err := by
  simp [Fair, hg]

theorem fair_called {h : Heard} {request : ProviderRequest} (hg : e.guard.turnsAway = none) :
    Fair h (.call provider request, e) ↔ FairOutcome request e.outcome := by
  simp [Fair, hg]

/-! ## The ramps -/

section Ramps

variable {configured : List String} {h : Heard} {p : Handler}

/-- Reports of the handler are truthful exactly when the environment is fair. -/
abbrev Honest (configured : List String) (h : Heard) (p : Handler) : Prop :=
  p.Hinges Happening.answer Heard.next Genuine Fair (Truthful configured) h

/-- The handler reports what is not true, if it comes to its end. -/
abbrev Lies (configured : List String) (h : Heard) (p : Handler) : Prop :=
  p.Breaks Happening.answer Heard.next (Truthful configured) h

theorem report_honest {r : IntentResult} (hr : Truthful configured h (.report r)) : Honest configured h (report r) := by
  refine ⟨hr, fun e s _ => ⟨fun _ => ?_, fun hn => (hn trivial).elim⟩⟩
  dsimp only
  split <;> trivial

theorem report_lies {r : IntentResult} (hr : ¬ Truthful configured h (.report r)) : Lies configured h (report r) :=
  fun ht => (hr ht).elim

theorem recordThen_honest {tx : ProviderTx} (hp : Honest configured h p) : Honest configured h (recordThen tx p) :=
  ⟨trivial, fun _ _ _ => ⟨fun _ => hp, fun hn => (hn trivial).elim⟩⟩

theorem recordThen_lies {tx : ProviderTx} (hp : Lies configured h p) : Lies configured h (recordThen tx p) :=
  fun _ _ _ => hp

theorem reportFailure_honest {error : String} (hf : h.named ∉ configured ∨ h.failed = true) :
    Honest configured h (reportFailure error) :=
  recordThen_honest (report_honest hf)

theorem reportFailure_lies {error : String} (hn : h.named ∈ configured) (hf : h.failed = false) :
    Lies configured h (reportFailure error) := by
  refine recordThen_lies (report_lies ?_)
  rintro (ht | ht)
  · exact ht hn
  · rw [hf] at ht
    cases ht

/-- What the last attempt of a ramp must have come to. -/
def Told (h : Heard) : Except ExecError ProviderTx → Prop
  | .ok tx => tx.status = "pending" ∨ h.finished = true
  | .error e => e.fault = .circuitOpen ∨ h.failed = true

def ProviderRequest.toRamp : ProviderRequest → Prop
  | .send _ _ _ => False
  | _ => True

theorem turnsAway_fault {g : Guard} (hg : g.turnsAway = some err) :
    err.fault = .circuitOpen ∨ (err.fault = .bulkheadFull ↔ shouldRetryProviderError err = true) := by
  unfold Guard.turnsAway at hg
  split at hg
  · cases hg
    exact .inr (by simp [shouldRetryProviderError])
  split at hg
  · cases hg
    exact .inr (by decide)
  split at hg
  · cases hg
    exact .inl rfl
  · cases hg

theorem retryVerdict_error (op : String) (n : ℕ) {a : Answer} {e : ExecError} (ha : a.called = .error e) :
    (retryVerdict op n a = none ∧ (shouldRetryProviderError e = true ∧ a.expired = none ∧ n ≠ maxAttempts)) ∨
      ∃ e', retryVerdict op n a = some (.error e') ∧ (e'.fault = .circuitOpen ↔ e.fault = .circuitOpen) ∧
        ¬ (shouldRetryProviderError e = true ∧ a.expired = none ∧ n ≠ maxAttempts) := by
  have hcircuit : shouldRetryProviderError e = true → e.fault ≠ .circuitOpen := by
    intro hs hf
    simp [shouldRetryProviderError, hf] at hs
  unfold retryVerdict
  rw [ha]
  dsimp only
  split
  · rename_i hs
    refine .inr ⟨e, rfl, Iff.rfl, ?_⟩
    rintro ⟨ht, -⟩
    simp [ht] at hs
  · rename_i hs
    have hs : shouldRetryProviderError e = true := by simpa using hs
    split
    · rename_i hx
      refine .inr ⟨_, rfl, ⟨nofun, fun hf => (hcircuit hs hf).elim⟩, fun ht => ?_⟩
      rw [hx] at ht
      cases ht.2.1
    · rename_i hx
      refine .inr ⟨_, rfl, ?_, fun ht => ?_⟩
      · split
        · exact Iff.rfl
        · exact ⟨nofun, fun hf => (hcircuit hs hf).elim⟩
      · rw [hx] at ht
        cases ht.2.1
    · rename_i hx
      split
      · rename_i hn
        exact .inr ⟨_, rfl, Iff.rfl, fun ht => ht.2.2 hn⟩
      · rename_i hn
        exact .inl ⟨rfl, hs, hx, hn⟩

theorem retried_iff {request : ProviderRequest} (hramp : request.toRamp) :
    Retried h e err request ↔ err.fault = .bulkheadFull ∧ e.expired = none ∧ h.attempts + 1 < maxAttempts := by
  cases request with
  | send => exact hramp.elim
  | onRamp | offRamp => exact Iff.rfl

theorem classified_iff {v : Verdict} {request : ProviderRequest} (hramp : request.toRamp) :
    Classified status v request ↔ status = "pending" ∨ v = .finished := by
  cases request with
  | send => exact hramp.elim
  | onRamp | offRamp => exact Iff.rfl

/-- **An attempt that ends the call is fair exactly when what it came to was told.** -/
theorem fair_iff_told {op : String} {request : ProviderRequest} (hramp : request.toRamp)
    (hfin : h.finished = false) (hv : retryVerdict op (h.attempts + 1) e.answer = some r) :
    Fair h (.call provider request, e) ↔ Told (h.next (.call provider request, e)) r := by
  cases hg : e.guard.turnsAway with
  | some err =>
    have hcalled : e.answer.called = .error err := by simp only [Happening.answer, hg]
    obtain ⟨hnone, -⟩ | ⟨e', he', hcircuit, hno⟩ := retryVerdict_error op (h.attempts + 1) hcalled
    · rw [hnone] at hv
      cases hv
    rw [he'] at hv
    cases hv
    simp only [fair_refused hg, FairRefusal, Heard.next, Told, hg, retried_iff hramp, hcircuit]
    -- the call was not made again, so it is one of the other reasons
    have hret (hf : err.fault ≠ .circuitOpen) :
        ¬ (err.fault = .bulkheadFull ∧ e.expired = none ∧ h.attempts + 1 < maxAttempts) := by
      rintro ⟨hb, hx, hlt⟩
      obtain hc | hs := turnsAway_fault hg
      · exact hf hc
      · exact hno ⟨hs.1 hb, hx, by omega⟩
    refine ⟨?_, ?_⟩
    · rintro (hc | hf | hagain)
      · exact .inl hc
      · exact .inr hf
      · exact .inl (by_contra fun hc => hret hc hagain)
    · rintro (hc | hf)
      · exact .inl hc
      · exact .inr (.inl hf)
  | none =>
    cases ho : e.outcome with
    | returned tx v =>
      have hcalled : e.answer.called = .ok tx := by simp only [Happening.answer, hg, ho, CallOutcome.result]
      simp only [retryVerdict, hcalled, Option.some.injEq] at hv
      subst hv
      simp [fair_called hg, FairOutcome, Heard.next, Heard.hear, Told, hg, ho, classified_iff hramp, hfin]
    | erred text context =>
      have hcalled : e.answer.called = .error ⟨if context then .context else .provider, text⟩ := by
        simp only [Happening.answer, hg, ho, CallOutcome.result]
      obtain ⟨hnone, -⟩ | ⟨e', he', -⟩ := retryVerdict_error op (h.attempts + 1) hcalled
      · rw [hnone] at hv
        cases hv
      rw [he'] at hv
      cases hv
      simp [fair_called hg, FairOutcome, Heard.next, Told, hg, ho]

theorem fair_of_retry {op : String} {request : ProviderRequest} (hramp : request.toRamp)
    (hlast : h.attempts + 1 ≤ maxAttempts) (hv : retryVerdict op (h.attempts + 1) e.answer = none) :
    Fair h (.call provider request, e) := by
  cases hg : e.guard.turnsAway with
  | some err =>
    have hcalled : e.answer.called = .error err := by simp only [Happening.answer, hg]
    obtain ⟨-, hs, hx, hn⟩ | ⟨e', he', -⟩ := retryVerdict_error op (h.attempts + 1) hcalled
    · simp only [fair_refused hg, FairRefusal, retried_iff hramp]
      obtain hc | hs' := turnsAway_fault hg
      · exact .inl hc
      · exact .inr (.inr ⟨hs'.2 hs, hx, by omega⟩)
    · rw [he'] at hv
      cases hv
  | none =>
    cases ho : e.outcome with
    | returned tx v => simp [retryVerdict, Happening.answer, hg, ho, CallOutcome.result] at hv
    | erred text context => simp [fair_called hg, FairOutcome, ho]

theorem next_call (provider : String) (request : ProviderRequest) (e : Happening) :
    (h.next (.call provider request, e)).named = h.named ∧
      (h.next (.call provider request, e)).attempts = h.attempts + 1 := by
  unfold Heard.next
  dsimp only
  split
  · exact ⟨rfl, rfl⟩
  · split <;> exact ⟨rfl, rfl⟩

theorem next_call_unfinished {op : String} {request : ProviderRequest} {n : ℕ} (hfin : h.finished = false)
    (hv : retryVerdict op n e.answer = none) : (h.next (.call provider request, e)).finished = false := by
  unfold Heard.next
  dsimp only
  split
  · exact hfin
  · rename_i hg
    split
    · rename_i ho
      simp [retryVerdict, Happening.answer, hg, ho, CallOutcome.result] at hv
    · exact hfin

theorem retryVerdict_last (op : String) (a : Answer) : ∃ r, retryVerdict op maxAttempts a = some r := by
  cases ha : a.called with
  | ok tx => exact ⟨.ok tx, by simp [retryVerdict, ha]⟩
  | error e =>
    obtain ⟨-, -, -, hn⟩ | ⟨e', he', -⟩ := retryVerdict_error op maxAttempts ha
    · exact (hn rfl).elim
    · exact ⟨_, he'⟩

section Retry

variable {op : String} {request : ProviderRequest} {k : Except ExecError ProviderTx → Handler}

theorem attempt_honest (provider : String) (hramp : request.toRamp) (hfin : h.finished = false)
    (hv : retryVerdict op (h.attempts + 1) e.answer = some r)
    (hk : ∀ h' : Heard, h'.named = h.named →
      (Told h' r → Honest configured h' (k r)) ∧ (¬ Told h' r → Lies configured h' (k r))) :
    (Fair h (.call provider request, e) → Honest configured (h.next (.call provider request, e)) (k r)) ∧
      (¬ Fair h (.call provider request, e) → Lies configured (h.next (.call provider request, e)) (k r)) := by
  rw [fair_iff_told hramp hfin hv]
  exact hk _ (next_call provider request e).1

/-- **Retries keep a handler honest**, when what follows them is. -/
theorem retryCall_honest (provider : String) (hramp : request.toRamp) {more : ℕ}
    (hmore : h.attempts + 1 + more = maxAttempts) (hfin : h.finished = false)
    (hk : ∀ (h' : Heard) r, h'.named = h.named →
      (Told h' r → Honest configured h' (k r)) ∧ (¬ Told h' r → Lies configured h' (k r))) :
    Honest configured h (retryCall op provider request k more) := by
  induction more generalizing h with
  | zero =>
    refine ⟨trivial, fun e s _ => ?_⟩
    obtain ⟨r, hr⟩ := retryVerdict_last op e.answer
    rw [← hmore] at hr
    have := attempt_honest (k := k) provider hramp hfin hr (hk · r)
    simpa [hr, ← hmore] using this
  | succ more ih =>
    refine ⟨trivial, fun e s _ => ?_⟩
    have hn : maxAttempts - (more + 1) = h.attempts + 1 := by omega
    cases hv : retryVerdict op (h.attempts + 1) e.answer with
    | some r =>
      have := attempt_honest (k := k) provider hramp hfin hv (hk · r)
      simpa [hn, hv] using this
    | none =>
      obtain ⟨hnamed, hatt⟩ := next_call (h := h) provider request e
      have hrest := ih (h := h.next (.call provider request, e)) (by omega) (next_call_unfinished hfin hv)
        (fun h' r hn' => hk h' r (hn'.trans hnamed))
      refine ⟨fun _ => ?_, fun hno => (hno (fair_of_retry hramp (by omega) hv)).elim⟩
      simpa [hn, hv] using hrest

end Retry

variable {w : Ramp}

theorem finishCall_honest (hres : ∀ tx, (w.result tx).success = true)
    (hf : ∀ e, h.failed = true → Honest configured h (fallback e)) (hr : Told h r) :
    Honest configured h (finishCall w fallback r) := by
  cases r with
  | ok tx =>
    refine recordThen_honest ?_
    split
    · trivial
    · rename_i hp
      exact report_honest (by simpa [Truthful, hres] using hr.resolve_left hp)
  | error e =>
    simp only [finishCall]
    split
    · trivial
    · rename_i hc
      exact hf e (hr.resolve_left hc)

theorem finishCall_lies (hres : ∀ tx, (w.result tx).success = true)
    (hf : ∀ e, h.failed = false → Lies configured h (fallback e)) (hr : ¬ Told h r) :
    Lies configured h (finishCall w fallback r) := by
  cases r with
  | ok tx =>
    obtain ⟨hp, hfin⟩ := not_or.1 hr
    refine recordThen_lies ?_
    rw [if_neg hp]
    exact report_lies (by simpa [Truthful, hres] using hfin)
  | error e =>
    obtain ⟨hc, hfailed⟩ := not_or.1 hr
    simp only [finishCall, if_neg hc]
    exact hf e (by simpa using hfailed)

theorem rampRound_honest {request : ProviderRequest} (hres : ∀ tx, (w.result tx).success = true)
    (hramp : request.toRamp)
    (hf : ∀ (h' : Heard) e, h'.failed = true → Honest w.providers h' (fallback e))
    (hf' : ∀ (h' : Heard) e, h'.named ∈ w.providers → h'.failed = false → Lies w.providers h' (fallback e)) :
    Honest w.providers h (rampRound w provider request fallback) := by
  refine ⟨trivial, fun e s _ => ⟨fun _ => ?_, fun hn => (hn trivial).elim⟩⟩
  dsimp only
  split
  · split
    · split
      · rename_i hmem
        refine retryCall_honest provider hramp (show 0 + 1 + 2 = 3 from rfl) rfl fun h' r hnamed => ?_
        have hmem' : h'.named ∈ w.providers := by rw [hnamed]; exact hmem
        exact ⟨finishCall_honest hres fun e' => hf h' e', finishCall_lies hres fun e' => hf' h' e' hmem'⟩
      · rename_i hmem
        exact reportFailure_honest (.inl hmem)
    · trivial
  · trivial

/-- **The loop of the ramps is honest**: a failure is reported whether or not there is an alternative. -/
theorem executeRamp_honest (hres : ∀ tx, (w.result tx).success = true) {request : ProviderRequest}
    (hramp : request.toRamp) (alternatives : List Fallback) :
    Honest w.providers h (executeRamp w provider request alternatives) := by
  cases alternatives with
  | nil =>
    exact rampRound_honest hres hramp (fun h' e hf => reportFailure_honest (.inr hf)) fun h' e => reportFailure_lies
  | cons alt remaining =>
    rw [executeRamp_cons]
    refine rampRound_honest hres hramp (fun h' e hf => ?_) fun h' e hmem hf _ _ _ => reportFailure_lies hmem hf
    exact ⟨trivial, fun _ _ _ => ⟨fun _ => reportFailure_honest (.inr hf), fun hn => (hn trivial).elim⟩⟩

end Ramps

/-! ## The blockchain worker -/

section Send

variable {chains : List CryptoChain} {h : Heard}

theorem trackThenAck_honest (hash : String) : Honest chains h (trackThenAck hash) :=
  ⟨trivial, fun _ _ _ => ⟨fun _ => trivial, fun hn => (hn trivial).elim⟩⟩

theorem finishPending_honest {existing : ProviderTx} {result : IntentResult}
    (hr : Truthful chains h (.report result)) : Honest chains h (finishPending existing status result) :=
  ⟨trivial, fun _ _ _ => ⟨fun _ => report_honest hr, fun hn => (hn trivial).elim⟩⟩

theorem poll_verdict {v : Verdict} (hv : (status, v) ∈ pollVocabulary) :
    (toLower status = "confirmed" → v = .finished) ∧ (toLower status = "failed" → v = .failed) := by
  have hall : ∀ x ∈ pollVocabulary,
      (toLower x.1 = "confirmed" → x.2 = .finished) ∧ (toLower x.1 = "failed" → x.2 = .failed) := by decide +kernel
  exact hall (status, v) hv

/-- **Looking at a pending transaction is honest**, whatever the environment does. -/
theorem checkPendingTx_honest (p : BlockchainSendPayload) (existing : ProviderTx) :
    Honest chains h (checkPendingTx chains p existing) := by
  unfold checkPendingTx
  split
  · refine ⟨trivial, fun e s hgen => ⟨fun _ => ?_, fun hn => (hn trivial).elim⟩⟩
    cases hp : e.polled with
    | none => simp [Happening.answer, hp, Prog.Hinges]
    | some q =>
      obtain ⟨hconf, hfail⟩ := poll_verdict (hgen q hp)
      have hanswer : e.answer.polled = some (q.hash, q.status) := by simp [Happening.answer, hp]
      have hnext : h.next (.poll existing.txHash, e) = h.hear q.verdict := by simp [Heard.next, hp]
      simp only [hanswer, hnext]
      split
      · rename_i hs
        exact finishPending_honest (by simp [Truthful, Heard.hear, hconf hs])
      · split
        · rename_i hs
          exact finishPending_honest (by simp [Truthful, Heard.hear, hfail hs])
        · exact trackThenAck_honest _
  · trivial

/-- **Sending is honest**: there is one call, and the chain is configured. -/
theorem sendTransaction_honest {p : BlockchainSendPayload} (hmem : h.named ∈ chains) (hfin : h.finished = false)
    (hfailed : h.failed = false) : Honest chains h (sendTransaction p) := by
  refine ⟨trivial, fun e s _ => ?_⟩
  cases hg : e.guard.turnsAway with
  | some err =>
    have hcalled : e.answer.called = .error err := by simp only [Happening.answer, hg]
    have hfair : Fair h (.call p.chain (.send p.token p.amount p.memo), e) ↔ err.fault = .circuitOpen := by
      simp [fair_refused hg, FairRefusal, Retried, hfailed]
    have hnext : h.next (.call p.chain (.send p.token p.amount p.memo), e) = { h with attempts := h.attempts + 1 } := by
      simp [Heard.next, hg]
    rw [hfair, hnext]
    simp only [hcalled]
    refine ⟨fun hc => ?_, fun hc => ?_⟩
    · rw [if_pos hc]
      trivial
    · rw [if_neg hc]
      exact reportFailure_lies hmem hfailed
  | none =>
    cases ho : e.outcome with
    | returned tx v =>
      have hcalled : e.answer.called = .ok tx := by simp only [Happening.answer, hg, ho, CallOutcome.result]
      have hfair : Fair h (.call p.chain (.send p.token p.amount p.memo), e) ↔
          toLower tx.status = "pending" ∨ v = if toLower tx.status = "confirmed" then .finished else .failed := by
        simp only [fair_called hg, FairOutcome, ho, Classified]
      have hnext : h.next (.call p.chain (.send p.token p.amount p.memo), e) =
          Heard.hear { h with attempts := h.attempts + 1 } v := by
        simp only [Heard.next, hg, ho]
      rw [hfair, hnext]
      simp only [hcalled]
      refine ⟨fun hc => recordThen_honest ?_, fun hc => recordThen_lies ?_⟩
      · split
        · exact trackThenAck_honest _
        · rename_i hp
          have hv := hc.resolve_left hp
          split at hv
          · rename_i hs
            rw [if_pos hs]
            exact report_honest (by simp [Truthful, Heard.hear, hv])
          · rename_i hs
            rw [if_neg hs]
            exact report_honest (by simp [Truthful, Heard.hear, hv])
      · obtain ⟨hp, hv⟩ := not_or.1 hc
        rw [if_neg hp]
        split at hv
        · rename_i hs
          rw [if_pos hs]
          exact report_lies (by simp [Truthful, Heard.hear, hv, hfin])
        · rename_i hs
          rw [if_neg hs]
          exact report_lies (by simp [Truthful, Heard.hear, hv, hfailed, hmem])
    | erred text context =>
      have hcalled : e.answer.called = .error ⟨if context then .context else .provider, text⟩ := by
        simp only [Happening.answer, hg, ho, CallOutcome.result]
      have hfair : Fair h (.call p.chain (.send p.token p.amount p.memo), e) := by
        simp only [fair_called hg, FairOutcome, ho]
      have hnext : (h.next (.call p.chain (.send p.token p.amount p.memo), e)).failed = true := by
        simp only [Heard.next, hg, ho]
      have hfault : (if context then ExecFault.context else ExecFault.provider) ≠ .circuitOpen := by
        cases context <;> decide
      refine ⟨fun _ => ?_, fun hno => (hno hfair).elim⟩
      simp only [hcalled, if_neg hfault]
      exact reportFailure_honest (.inr hnext)

theorem handleSend_honest (chains : List CryptoChain) (p : BlockchainSendPayload) :
    Honest chains h (handleSend chains p) := by
  refine ⟨trivial, fun e s _ => ⟨fun _ => ?_, fun hn => (hn trivial).elim⟩⟩
  dsimp only
  split
  · split
    · split
      · rename_i hmem
        exact sendTransaction_honest hmem rfl rfl
      · rename_i hmem
        exact reportFailure_honest (.inl hmem)
    · refine ⟨trivial, fun b t _ => ⟨fun _ => ?_, fun hn => (hn trivial).elim⟩⟩
      dsimp only
      split
      · split
        · split
          · exact checkPendingTx_honest p _
          · trivial
        · trivial
      · trivial
  · trivial

end Send

/-! ## Every delivery -/

def ExecIntent.configured (w : Workers) : ExecIntent → List String
  | .onRamp _ => w.onRampProviders
  | .offRamp _ => w.offRampProviders
  | .send _ => w.chains

theorem handler_honest (w : Workers) (it : ExecIntent) : Honest (it.configured w) {} (it.handler w) := by
  cases it with
  | onRamp p => exact executeRamp_honest (w := onRamp w.onRampProviders) (fun _ => rfl) (by trivial) _
  | offRamp p => exact executeRamp_honest (w := offRamp w.offRampProviders) (fun _ => rfl) (by trivial) _
  | send p => exact handleSend_honest w.chains p

def ExecIntent.steps (w : Workers) (it : ExecIntent) (es : List Happening) (s : Execution) : List (Step × Happening) :=
  (it.handler w).trace Happening.answer es s

def ExecIntent.ends (w : Workers) (it : ExecIntent) (es : List Happening) (s : Execution) : Bool :=
  ((it.handler w).exec (es.map Happening.answer) s).2.isSome

/-- **Results are truthful exactly when the environment is fair.** For every intent, every outcome
of the calls and polls that the repository's own providers and clients can give, and every load on
the bulkheads: when all steps are fair, every result is true, and a delivery that comes to its end
and reports only what is true had fair steps. -/
theorem results_truthful (w : Workers) (it : ExecIntent) (es : List Happening) (s : Execution)
    (hgen : ∀ x ∈ it.steps w es s, Genuine x) :
    (Along Heard.next Fair {} (it.steps w es s) →
      Along Heard.next (fun h x => Truthful (it.configured w) h x.1) {} (it.steps w es s)) ∧
    (it.ends w es s = true →
      Along Heard.next (fun h x => Truthful (it.configured w) h x.1) {} (it.steps w es s) →
      Along Heard.next Fair {} (it.steps w es s)) :=
  ⟨trace_justified (handler_honest w it) hgen, trace_within (handler_honest w it) hgen⟩

def busyThenDone : List Happening :=
  [{}, { guard := { full := true } }, { outcome := .returned ⟨"0x1", "COMPLETED", "0x1"⟩ .finished }, {}, {}]

theorem results_truthful_done :
    ((ExecIntent.handler sampleWorkers (.onRamp sampleOnRamp)).exec (busyThenDone.map Happening.answer)
      (.init sampleRoute)).1.accepted = [⟨true, "0x1", ""⟩] ∧
    Along Heard.next (fun h x => Truthful ["p"] h x.1) {}
      (ExecIntent.steps sampleWorkers (.onRamp sampleOnRamp) busyThenDone (.init sampleRoute)) :=
  ⟨by decide +kernel,
    (results_truthful sampleWorkers (.onRamp sampleOnRamp) busyThenDone (.init sampleRoute) (by decide +kernel)).1
      (by decide +kernel)⟩

def sampleSend : BlockchainSendPayload := ⟨1, 2, "solana", "USDC", 100, "ref"⟩

/-- A delivery with a genuine environment tells the engine this, which is not true. -/
def Deceives (w : Workers) (it : ExecIntent) (es : List Happening) (result : IntentResult) : Prop :=
  (∀ x ∈ it.steps w es (.init sampleRoute), Genuine x) ∧
    ((it.handler w).exec (es.map Happening.answer) (.init sampleRoute)).1.accepted = [result] ∧
    ¬ Along Heard.next (fun h x => Truthful (it.configured w) h x.1) {} (it.steps w es (.init sampleRoute))

instance (w : Workers) (it : ExecIntent) (es : List Happening) (result : IntentResult) :
    Decidable (Deceives w it es result) :=
  inferInstanceAs (Decidable (_ ∧ _))

/-- **False results.** An on-ramp that has only started, or has failed, is reported as a success; a
transaction sent to Solana as a failure; and so is an on-ramp that was never called, its bulkhead
being full three times. -/
theorem results_false :
    (OnRampProvider.execute ⟨fun _ => none, fun _ => none⟩ ⟨.ok 1, .ok (), "tx"⟩ 100 "GBP" "USDT" "ref" 1).2.toOption =
      some ⟨"", "PENDING", ""⟩ ∧
    Deceives sampleWorkers (.onRamp sampleOnRamp)
      [{}, { outcome := .returned ⟨"", "PENDING", ""⟩ .underway }, {}, {}] ⟨true, "", ""⟩ ∧
    Deceives sampleWorkers (.onRamp sampleOnRamp)
      [{}, { outcome := .returned ⟨"", "FAILED", ""⟩ .failed }, {}, {}] ⟨true, "", ""⟩ ∧
    Deceives ⟨[], [], ["solana"]⟩ (.send sampleSend)
      [{}, { outcome := .returned ⟨"", "submitted", "sig"⟩ .underway }, {}, {}]
      ⟨false, "sig", "blockchain tx status: submitted"⟩ ∧
    Deceives sampleWorkers (.onRamp sampleOnRamp)
      [{}, { guard := { full := true } }, { guard := { full := true } }, { guard := { full := true } }, {}, {}]
      ⟨false, "", "settla-resilience: retry provider-onramp-p exhausted after 3 attempts: " ++
        "settla-resilience: bulkhead is full"⟩ := by
  refine ⟨?_, ?_, ?_, ?_, ?_⟩ <;> decide +kernel

end Settla.Node
