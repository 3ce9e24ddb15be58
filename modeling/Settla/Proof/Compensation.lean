import Settla.Core.Compensation
import Settla.Proof.Engine

/-!
# Compensation plans and their execution

The steps of a plan are only a record: what is sent out are the intents that `FailTransfer` and
`InitiateRefund` write, and these know nothing of a strategy.
-/

namespace Settla.Compensation

open Settla.Core List Function

/-! ## The strategy -/

/-- Known from the provider while the transfer is ON_RAMPING, from the list of steps otherwise. -/
def OnRampDone (t : Transfer) (completedSteps : List String) (ext : ExternalStatus) : Prop :=
  if t.status = .onRamping then ext.onRampStatus = "completed" else stepOnRampCompleted ∈ completedSteps

variable {t : Transfer} (tenant : Tenant) {completedSteps : List String} {ext : ExternalStatus}

variable {call : EngineCall} {es : List OutboxEntry} {st : TransferStatus} {σ : Type}

theorem onRampDone_onRamping (h : t.status = .onRamping) :
    OnRampDone t completedSteps ext ↔ ext.onRampStatus = "completed" := by
  unfold OnRampDone
  rw [if_pos h]

theorem onRampDone_otherwise (h : t.status ≠ .onRamping) :
    OnRampDone t completedSteps ext ↔ stepOnRampCompleted ∈ completedSteps := by
  unfold OnRampDone
  rw [if_neg h]

theorem ambiguous_iff :
    isAmbiguousState t completedSteps ext = true ↔
      (t.status = .onRamping ∧ ext.onRampStatus ≠ "completed" ∧ ext.onRampStatus ≠ "failed") ∨
        (t.status = .settling ∧ stepOnRampCompleted ∉ completedSteps) := by
  unfold isAmbiguousState
  cases t.status <;> simp

variable (t completedSteps ext) in
/-- **The strategy of a transfer.** -/
theorem determine_cases :
    (determineCompensation t tenant completedSteps ext = emptyPlan t .manualReview ∧ ¬ OnRampDone t completedSteps ext) ∨
      (determineCompensation t tenant completedSteps ext = simpleRefundPlan t tenant ∧
        ¬ OnRampDone t completedSteps ext ∧ t.status ≠ .settling) ∨
      (OnRampDone t completedSteps ext ∧ ∃ plan : CompensationPlan,
        determineCompensation t tenant completedSteps ext = plan ∧
        plan.transferID = t.id ∧ plan.tenantID = t.tenantID ∧
        (plan.strategy = .creditStablecoin ∧ plan.steps = buildCreditStablecoinSteps t ∨
          plan.strategy = .reverseOnRamp ∧ plan.steps = buildReverseOnRampSteps t tenant.slug)) := by
  unfold determineCompensation
  by_cases hamb : isAmbiguousState t completedSteps ext = true
  · rw [if_pos hamb]
    refine .inl ⟨rfl, ?_⟩
    rcases ambiguous_iff.1 hamb with ⟨hstatus, hno, -⟩ | ⟨hstatus, hno⟩
    · exact mt (onRampDone_onRamping hstatus).1 hno
    · exact mt (onRampDone_otherwise (by rw [hstatus]; decide)).1 hno
  · rw [if_neg hamb]
    have hclear := mt ambiguous_iff.2 hamb
    by_cases hdone : OnRampDone t completedSteps ext
    · have hfailed : ¬ (t.status = .onRamping ∧ ext.onRampStatus = "failed") := by
        rintro ⟨hstatus, hfailed⟩
        rw [onRampDone_onRamping hstatus, hfailed] at hdone
        exact absurd hdone (by decide)
      have honramp : stepOnRampCompleted ∈ completedSteps ∨ (t.status = .onRamping ∧ ext.onRampStatus = "completed") := by
        by_cases hstatus : t.status = .onRamping
        · exact .inr ⟨hstatus, (onRampDone_onRamping hstatus).1 hdone⟩
        · exact .inl ((onRampDone_otherwise hstatus).1 hdone)
      rw [if_neg hfailed]
      rw [if_neg (not_not.2 honramp)]
      refine .inr (.inr ⟨hdone, _, rfl, ?_⟩)
      split
      · exact ⟨rfl, rfl, .inl ⟨rfl, rfl⟩⟩
      · exact ⟨rfl, rfl, .inr ⟨rfl, rfl⟩⟩
    · have hsettling : t.status ≠ .settling := by
        intro hstatus
        exact hclear (.inr ⟨hstatus, mt (onRampDone_otherwise (by rw [hstatus]; decide)).2 hdone⟩)
      refine .inr (.inl ⟨?_, hdone, hsettling⟩)
      by_cases hfailed : t.status = .onRamping ∧ ext.onRampStatus = "failed"
      · rw [if_pos hfailed]
      · have honramp : ¬ (stepOnRampCompleted ∈ completedSteps ∨
            (t.status = .onRamping ∧ ext.onRampStatus = "completed")) := by
          by_cases hstatus : t.status = .onRamping
          · rw [onRampDone_onRamping hstatus] at hdone
            exact absurd (.inl ⟨hstatus, hdone, fun h => hfailed ⟨hstatus, h⟩⟩) hclear
          · rw [onRampDone_otherwise hstatus] at hdone
            exact not_or.2 ⟨hdone, fun h => hstatus h.1⟩
        rw [if_neg hfailed]
        rw [if_pos honramp]

/-! ## What the engine writes -/

def intentTypes (entries : List OutboxEntry) : List String := (intentsOf entries).map (·.kind.string)

theorem intentTypes_outboxEntries (t : Transfer) (intents : List Intent) (ev : Option EventType) :
    intentTypes (outboxEntries t intents ev) = intents.map (·.kind.string) := by
  unfold intentTypes
  rw [intentsOf_outboxEntries]

theorem failTransfer_intents {reason code : String} {t : Transfer}
    (h : failTransfer reason code t = .transition st es) :
    t.canTransitionTo .failed = true ∧ st = .failed ∧ intentTypes es = ["treasury.release", "webhook.deliver"] := by
  unfold failTransfer at h
  split at h
  · nomatch h
  rename_i hcan
  obtain ⟨rfl, rfl⟩ := Plan.transition.inj h
  exact ⟨not_not.1 hcan, rfl, intentTypes_outboxEntries t _ _⟩

theorem initiateRefund_intents {l : Lookups} {t : Transfer} (h : initiateRefund l t = .transition st es) :
    intentTypes es = ["ledger.reverse", "treasury.release"] := by
  obtain ⟨hmove, intents, ev, htransition, rfl⟩ := initiateRefund_sound l t st es h
  rw [intentTypes_outboxEntries]
  cases htransition with
  | refundEmpty | refundPosted => rfl
  | onRampFailed hs => simp [hs] at hmove
  | _ => simp at hmove

theorem initiateRefund_ne_skip (l : Lookups) (t : Transfer) : initiateRefund l t ≠ .skip := by
  unfold initiateRefund
  split
  · nofun
  split
  · nofun
  split
  · split <;> nofun
  · nofun

/-! ## Calls among others -/

theorem interleaved_ok {tenantID id : UUID} {s s' : Interleaved}
    (h : interleavedEngine tenantID id call s = (.ok (), s')) :
    ∃ turn turns r, s.turns = turn :: turns ∧ turn.row = some r ∧ r.tenantID = tenantID ∧ s'.turns = turns ∧
      (call.plan turn.lookups r = .skip ∧ s'.committed = s.committed ∨
        ∃ st es, call.plan turn.lookups r = .transition st es ∧ turn.reply = .ok ∧ s'.committed = s.committed ++ es) := by
  unfold interleavedEngine at h
  split at h
  · nomatch h
  rename_i turn turns hturns
  split at h
  · nomatch h
  rename_i r hrow
  split at h
  · nomatch h
  rename_i htenant
  refine ⟨turn, turns, r, hturns, hrow, not_not.1 htenant, ?_⟩
  cases hplan : call.plan turn.lookups r with
  | refuse e =>
    rw [hplan] at h
    nomatch h
  | skip =>
    rw [hplan] at h
    obtain ⟨-, rfl⟩ := Prod.mk.inj h
    exact ⟨rfl, .inl ⟨rfl, rfl⟩⟩
  | transition st es =>
    rw [hplan] at h
    obtain ⟨hresult, rfl⟩ := Prod.mk.inj h
    have hreply : turn.reply = .ok := by
      by_contra hne
      rw [if_neg hne] at hresult
      nomatch hresult
    refine ⟨rfl, .inr ⟨st, es, rfl, hreply, ?_⟩⟩
    rw [hreply]
    rfl

theorem intentTypes_append (es es' : List OutboxEntry) : intentTypes (es ++ es') = intentTypes es ++ intentTypes es' := by
  unfold intentTypes
  rw [intentsOf_append, map_append]

variable {engine : CompensationEngine Interleaved} {plan : CompensationPlan} {s s' : Interleaved}
  {wrap : EngineErr → ExecErr}

theorem callEngine_ok {engine : CompensationEngine σ} {s s' : σ}
    (h : callEngine engine wrap plan call s = (.ok (), s')) :
    engine plan.tenantID plan.transferID call s = (.ok (), s') := by
  unfold callEngine at h
  split at h
  · rename_i heq
    rw [heq]
    exact congrArg _ (Prod.mk.inj h).2
  · nomatch (Prod.mk.inj h).1

theorem fail_committed {reason code : String}
    (h : callEngine interleavedEngine wrap plan (.failTransfer reason code) s = (.ok (), s')) :
    (∃ turn ∈ s.turns, ∃ r, turn.row = some r ∧ r.canTransitionTo .failed = true) ∧
      intentTypes s'.committed = intentTypes s.committed ++ ["treasury.release", "webhook.deliver"] := by
  obtain ⟨turn, turns, r, hturns, hrow, -, -, hskip | ⟨st, es, hplan, -, hcommitted⟩⟩ := interleaved_ok (callEngine_ok h)
  · exact absurd hskip.1 (by unfold EngineCall.plan failTransfer; dsimp only; split <;> nofun)
  · obtain ⟨hcan, -, htypes⟩ := failTransfer_intents hplan
    refine ⟨⟨turn, hturns ▸ mem_cons_self, r, hrow, hcan⟩, ?_⟩
    rw [hcommitted, intentTypes_append, htypes]

theorem refund_committed (h : callEngine interleavedEngine wrap plan .initiateRefund s = (.ok (), s')) :
    intentTypes s'.committed = intentTypes s.committed ++ ["ledger.reverse", "treasury.release"] := by
  obtain ⟨turn, turns, r, -, -, -, -, hskip | ⟨st, es, hplan, -, hcommitted⟩⟩ := interleaved_ok (callEngine_ok h)
  · exact absurd hskip.1 (initiateRefund_ne_skip turn.lookups r)
  · rw [hcommitted, intentTypes_append, initiateRefund_intents hplan]

theorem simpleRefund_committed (h : executeSimpleRefund interleavedEngine plan s = (.ok (), s')) :
    ∃ before, intentTypes s'.committed = before ++ ["ledger.reverse", "treasury.release"] := by
  unfold executeSimpleRefund at h
  split at h
  · split at h
    · nomatch (Prod.mk.inj h).1
    · exact ⟨_, refund_committed h⟩
  · exact ⟨_, refund_committed h⟩

variable {records : RecordAnswers}

theorem execute_ok {engine : CompensationEngine σ} {s : σ} (h : (execute engine records plan s).1 = .ok ()) :
    executeStrategy engine plan s = (.ok (), (execute engine records plan s).2.2) := by
  unfold execute at h ⊢
  by_cases hcreated : records.created = true
  · rw [if_neg (not_not.2 hcreated)] at h ⊢
    rcases hrun : executeStrategy engine plan s with ⟨result, s'⟩
    rw [hrun] at h
    cases result with
    | error e => nomatch h
    | ok u =>
      dsimp only
      split <;> rfl
  · rw [if_pos hcreated] at h
    nomatch h

/-! ## Completed compensations -/

/-- The row has moved on from `t` by valid transitions. -/
structure Later (t r : Transfer) : Prop where
  same : r = { t with status := r.status, version := r.version }
  reached : Relation.ReflTransGen (fun a b => b ∈ validTransitions a) t.status r.status

/-- The rows the calls meet come from `t`. -/
def Follows (t : Transfer) (turns : List Turn) : Prop := ∀ turn ∈ turns, ∀ r, turn.row = some r → Later t r

/-- Every step of the plan has an intent of its type among the entries. -/
def Ran (plan : CompensationPlan) (entries : List OutboxEntry) : Prop :=
  ∀ step ∈ plan.steps, step.type ∈ intentTypes entries

/-- The transfer can still fail, now or after further transitions. -/
def CanStillFail (t : Transfer) : Prop :=
  t.status = .created ∨ t.status = .funded ∨ t.status = .onRamping ∨ t.status = .settling ∨ t.status = .offRamping

theorem canStillFail_of_later {t r : Transfer} (h : Later t r) (hcan : r.canTransitionTo .failed = true) :
    CanStillFail t := by
  have hclosed : ∀ a b : TransferStatus, Relation.ReflTransGen (fun a b => b ∈ validTransitions a) a b →
      a ∈ [TransferStatus.completed, .failed, .refunding, .refunded] →
      b ∈ [TransferStatus.completed, .failed, .refunding, .refunded] := by
    intro a b hab ha
    induction hab with
    | refl => exact ha
    | @tail b c _ hbc ih => revert hbc ih; cases b <;> cases c <;> decide
  have hr : r.status ∉ [TransferStatus.completed, .failed, .refunding, .refunded] := by
    unfold Transfer.canTransitionTo at hcan
    intro hmem
    revert hcan hmem
    cases r.status <;> decide
  have ht := mt (hclosed t.status r.status h.reached) hr
  unfold CanStillFail
  revert ht
  cases t.status <;> decide

theorem exists_later {t : Transfer} (h : CanStillFail t) : ∃ r, Later t r ∧ r.canTransitionTo .failed = true := by
  by_cases hfunded : t.status = .funded
  · refine ⟨t.advance .onRamping, ⟨rfl, .single ?_⟩, rfl⟩
    rw [hfunded]
    exact mem_cons_self
  · refine ⟨t, ⟨rfl, .refl⟩, ?_⟩
    unfold CanStillFail at h
    unfold Transfer.canTransitionTo
    revert h hfunded
    cases t.status <;> decide

theorem executeStrategy_failing (engine : CompensationEngine σ)
    (hplan : plan.strategy = .creditStablecoin ∨ plan.strategy = .reverseOnRamp) (s : σ) :
    ∃ reason code, executeStrategy engine plan s = callEngine engine .engine plan (.failTransfer reason code) s := by
  unfold executeStrategy
  rcases hplan with hplan | hplan
  all_goals
    rw [hplan]
    exact ⟨_, _, rfl⟩

theorem failing_committed (hplan : plan.strategy = .creditStablecoin ∨ plan.strategy = .reverseOnRamp)
    (h : executeStrategy interleavedEngine plan s = (.ok (), s')) :
    (∃ turn ∈ s.turns, ∃ r, turn.row = some r ∧ r.canTransitionTo .failed = true) ∧
      intentTypes s'.committed = intentTypes s.committed ++ ["treasury.release", "webhook.deliver"] := by
  obtain ⟨reason, code, hcall⟩ := executeStrategy_failing interleavedEngine hplan s
  rw [hcall] at h
  exact fail_committed h

theorem failing_succeeds (hplan : plan.strategy = .creditStablecoin ∨ plan.strategy = .reverseOnRamp) {r : Transfer}
    (htenant : r.tenantID = plan.tenantID) (hcan : r.canTransitionTo .failed = true) (l : Lookups) :
    (execute interleavedEngine ⟨true, fun _ => true⟩ plan ⟨[⟨some r, l, .ok⟩], []⟩).1 = .ok () := by
  have hstrategy : ∃ s', executeStrategy interleavedEngine plan ⟨[⟨some r, l, .ok⟩], []⟩ = (.ok (), s') := by
    obtain ⟨reason, code, hcall⟩ := executeStrategy_failing interleavedEngine hplan ⟨[⟨some r, l, .ok⟩], []⟩
    rw [hcall]
    unfold callEngine interleavedEngine EngineCall.plan failTransfer
    dsimp only
    rw [if_neg (not_not.2 htenant), if_neg (not_not.2 hcan)]
    exact ⟨_, rfl⟩
  obtain ⟨s', hs'⟩ := hstrategy
  unfold execute
  rw [if_neg (not_not.2 rfl), hs']
  rfl

variable (t : Transfer) (tenant : Tenant) (completedSteps : List String) (ext : ExternalStatus)

/-- **Completed compensation really ran** exactly if the on-ramp does not count as completed, or the
transfer can no longer fail. -/
theorem compensation_ran_iff :
    (∀ (records : RecordAnswers) (turns : List Turn), Follows t turns →
      (execute interleavedEngine records (determineCompensation t tenant completedSteps ext) ⟨turns, []⟩).1 = .ok () →
      (determineCompensation t tenant completedSteps ext).strategy ≠ .manualReview →
      Ran (determineCompensation t tenant completedSteps ext)
        (execute interleavedEngine records (determineCompensation t tenant completedSteps ext) ⟨turns, []⟩).2.2.committed) ↔
      ¬ (OnRampDone t completedSteps ext ∧ CanStillFail t) := by
  -- by the strategy: there are no steps, a refund writes both of its steps, and a failed transfer
  -- has a step that nothing writes
  rcases determine_cases t tenant completedSteps ext with
    ⟨hplan, hdone⟩ | ⟨hplan, hdone, -⟩ | ⟨hdone, plan, hplan, hid, htenant, hstrategy⟩
  · rw [hplan]
    exact iff_of_true (fun _ _ _ _ hmanual => absurd rfl hmanual) fun h => hdone h.1
  · rw [hplan]
    refine iff_of_true (fun records turns _ hok _ => ?_) fun h => hdone h.1
    obtain ⟨before, htypes⟩ := simpleRefund_committed (execute_ok hok)
    intro step hstep
    rw [htypes]
    rcases mem_cons.1 hstep with rfl | hstep
    · exact mem_append_right _ (mem_cons_of_mem _ mem_cons_self)
    · rw [mem_singleton.1 hstep]
      exact mem_append_right _ mem_cons_self
  · rw [hplan]
    have hfails : plan.strategy = .creditStablecoin ∨ plan.strategy = .reverseOnRamp := hstrategy.imp And.left And.left
    constructor
    · rintro hran ⟨-, hcan⟩
      obtain ⟨r, hlater, hr⟩ := exists_later hcan
      have hok := failing_succeeds hfails ((congrArg Transfer.tenantID hlater.same).trans htenant.symm) hr
        ⟨fun _ _ => none, fun _ => none⟩
      have hfollows : Follows t [⟨some r, ⟨fun _ _ => none, fun _ => none⟩, .ok⟩] := by
        intro turn hturn r' hr'
        rw [mem_singleton.1 hturn] at hr'
        exact Option.some.inj hr' ▸ hlater
      have hauto : plan.strategy ≠ .manualReview := by
        rcases hfails with h | h <;> rw [h] <;> decide
      have hall := hran _ _ hfollows hok hauto
      obtain ⟨-, htypes⟩ := failing_committed hfails (execute_ok hok)
      unfold Ran at hall
      rw [htypes] at hall
      rcases hstrategy with ⟨-, hsteps⟩ | ⟨-, hsteps⟩
      · rw [hsteps] at hall
        have hmissing : "position.credit" ∈ ["treasury.release", "webhook.deliver"] := hall _ mem_cons_self
        exact absurd hmissing (by decide)
      · rw [hsteps] at hall
        have hmissing : "provider.reverse_onramp" ∈ ["treasury.release", "webhook.deliver"] :=
          hall _ mem_cons_self
        exact absurd hmissing (by decide)
    · intro hno records turns hfollows hok _
      obtain ⟨⟨turn, hturn, r, hrow, hr⟩, -⟩ := failing_committed hfails (execute_ok hok)
      exact absurd ⟨hdone, canStillFail_of_later (hfollows turn hturn r hrow) hr⟩ hno

def bought (status : TransferStatus) : Transfer :=
  ⟨5, 1, "", "", status, 3, "GBP", 100, "NGN", 200000, "USDT", 125, "tron", 1.25, ⟨0, 0, 0, 0⟩, "p1", "p2",
    ⟨0, "", "", ""⟩, ⟨"", "", "", "", "", ""⟩, none⟩

def notConfirmed : ExternalStatus := ⟨"", some false, "", 0⟩

def noLookups : Lookups := ⟨fun _ _ => none, fun _ => some "acme"⟩

/-- A transfer that failed after the on-ramp: three steps count as completed, but no reversal was
written. -/
theorem reversal_not_written :
    (determineCompensation (bought .settling) ⟨"acme", []⟩ ["funded", "onramp_completed"] notConfirmed).steps.map
        Step.type = ["provider.reverse_onramp", "treasury.release", "ledger.reverse"] ∧
      (execute interleavedEngine ⟨true, fun _ => true⟩
        (determineCompensation (bought .settling) ⟨"acme", []⟩ ["funded", "onramp_completed"] notConfirmed)
        ⟨[⟨some (bought .settling), noLookups, .ok⟩], []⟩).1 = .ok () ∧
      ((execute interleavedEngine ⟨true, fun _ => true⟩
        (determineCompensation (bought .settling) ⟨"acme", []⟩ ["funded", "onramp_completed"] notConfirmed)
        ⟨[⟨some (bought .settling), noLookups, .ok⟩], []⟩).2.1.map fun u => (u.stepsCompleted, u.status)) =
          some (["provider.reverse_onramp", "treasury.release", "ledger.reverse"], .completed) ∧
      intentTypes (execute interleavedEngine ⟨true, fun _ => true⟩
        (determineCompensation (bought .settling) ⟨"acme", []⟩ ["funded", "onramp_completed"] notConfirmed)
        ⟨[⟨some (bought .settling), noLookups, .ok⟩], []⟩).2.2.committed = ["treasury.release", "webhook.deliver"] := by
  decide +kernel

/-! ## Executable plans -/

section

variable {l : Lookups} {store : Store}

theorem store_transition (store : Store) (hrow : store.transfers t.id = some t)
    (hplan : call.plan l t = .transition st es) :
    storeEngine l t.tenantID t.id call store =
      (.ok (), ⟨update store.transfers t.id (some (t.advance st)), store.outbox ++ es⟩) := by
  unfold storeEngine Store.call Store.transitionWithOutbox
  rw [hrow]
  dsimp only
  rw [if_neg (not_not.2 rfl), hplan]
  dsimp only
  rw [if_neg (not_not.2 rfl)]

theorem store_fail (hrow : store.transfers t.id = some t) (reason code : String) :
    (t.canTransitionTo .failed = true ∧ ∃ es, storeEngine l t.tenantID t.id (.failTransfer reason code) store =
        (.ok (), ⟨update store.transfers t.id (some (t.advance .failed)), store.outbox ++ es⟩)) ∨
      (t.canTransitionTo .failed = false ∧ ∃ e, storeEngine l t.tenantID t.id (.failTransfer reason code) store =
        (.error e, store)) := by
  by_cases hcan : t.canTransitionTo .failed = true
  · have hplan : ∃ es, (EngineCall.failTransfer reason code).plan l t = .transition .failed es := by
      unfold EngineCall.plan failTransfer
      dsimp only
      rw [if_neg (not_not.2 hcan)]
      exact ⟨_, rfl⟩
    obtain ⟨es, hplan⟩ := hplan
    exact .inl ⟨hcan, es, store_transition t store hrow hplan⟩
  · refine .inr ⟨Bool.eq_false_iff.2 hcan, ?_⟩
    unfold storeEngine Store.call EngineCall.plan failTransfer
    rw [hrow]
    dsimp only
    rw [if_neg (not_not.2 rfl), if_pos hcan]
    exact ⟨_, rfl⟩

theorem store_refund (store : Store) (hrow : store.transfers t.id = some t) (hstatus : t.status = .failed) {slug : String}
    (hslug : l.getTenant t.tenantID = some slug) :
    ∃ store', storeEngine l t.tenantID t.id .initiateRefund store = (.ok (), store') := by
  have hplan : ∃ es, initiateRefund l t = .transition .refunding es := by
    unfold initiateRefund Transfer.canTransitionTo
    rw [hstatus, hslug]
    rw [if_neg (by decide), if_neg (by decide)]
    split
    · exact ⟨_, rfl⟩
    · exact ⟨_, rfl⟩
  obtain ⟨es, hplan⟩ := hplan
  exact ⟨_, store_transition t store hrow hplan⟩

end

theorem execute_ok_iff {engine : CompensationEngine σ} {s : σ}
    (hcreated : records.created = true) (hupdated : ∀ update, records.updated update = true) :
    (execute engine records plan s).1 = .ok () ↔ (executeStrategy engine plan s).1 = .ok () := by
  constructor
  · intro h
    rw [execute_ok h]
  · intro h
    unfold execute
    rw [if_neg (not_not.2 hcreated)]
    rcases hrun : executeStrategy engine plan s with ⟨result, s'⟩
    rw [hrun] at h
    cases result with
    | error e => nomatch h
    | ok u =>
      dsimp only
      rw [hupdated, if_pos rfl]

theorem store_failing {l : Lookups} {store : Store} (hrow : store.transfers t.id = some t) (hid : plan.transferID = t.id)
    (htenant : plan.tenantID = t.tenantID)
    (hplan : plan.strategy = .creditStablecoin ∨ plan.strategy = .reverseOnRamp) :
    (executeStrategy (storeEngine l) plan store).1 = .ok () ↔ t.canTransitionTo .failed = true := by
  obtain ⟨reason, code, hcall⟩ := executeStrategy_failing (storeEngine l) hplan store
  rw [hcall]
  unfold callEngine
  rw [hid, htenant]
  rcases store_fail t (l := l) hrow reason code with ⟨hcan, es, heq⟩ | ⟨hcan, e, heq⟩
  · rw [heq]
    exact iff_of_true rfl hcan
  · rw [heq, hcan]
    exact iff_of_false nofun nofun

theorem store_simpleRefund {l : Lookups} {store : Store} (hrow : store.transfers t.id = some t) {slug : String}
    (hslug : l.getTenant t.tenantID = some slug) (hid : plan.transferID = t.id) (htenant : plan.tenantID = t.tenantID)
    (hstatus : plan.transferStatus = t.status) :
    (executeSimpleRefund (storeEngine l) plan store).1 = .ok () ↔
      t.status = .failed ∨ t.canTransitionTo .failed = true := by
  unfold executeSimpleRefund callEngine
  rw [hid, htenant, hstatus]
  by_cases hfailed : t.status = .failed
  · rw [if_neg (not_not.2 hfailed)]
    obtain ⟨store', heq⟩ := store_refund t store hrow hfailed hslug
    rw [heq]
    exact iff_of_true rfl (.inl hfailed)
  · rw [if_pos hfailed]
    rcases store_fail t (l := l) hrow "provider confirmed failure during compensation" "COMPENSATION_SIMPLE_REFUND" with
      ⟨hcan, es, heq⟩ | ⟨hcan, e, heq⟩
    · rw [heq]
      dsimp only
      have hrow' : (update store.transfers t.id (some (t.advance .failed))) (t.advance .failed).id =
          some (t.advance .failed) := update_self _ _ _
      obtain ⟨store', heq'⟩ := store_refund (t.advance .failed)
        ⟨update store.transfers t.id (some (t.advance .failed)), store.outbox ++ es⟩ hrow' rfl hslug
      rw [show storeEngine l t.tenantID t.id .initiateRefund _ = _ from heq']
      exact iff_of_true rfl (.inr hcan)
    · rw [heq, hcan]
      exact iff_of_false nofun (by simpa using hfailed)

/-- **Compensation plans are executable**, alone on the store, exactly if the transfer is not
FUNDED, and not FAILED with the on-ramp completed. -/
theorem compensation_executable_iff
    (hstatus : t.status ∈ [TransferStatus.funded, .onRamping, .settling, .offRamping, .failed])
    (hauto : (determineCompensation t tenant completedSteps ext).strategy ≠ .manualReview)
    (l : Lookups) (store : Store) (hrow : store.transfers t.id = some t)
    (hslug : ∃ slug, l.getTenant t.tenantID = some slug) (records : RecordAnswers) (hcreated : records.created = true)
    (hupdated : ∀ update, records.updated update = true) :
    (execute (storeEngine l) records (determineCompensation t tenant completedSteps ext) store).1 = .ok () ↔
      t.status ≠ .funded ∧ ¬ (t.status = .failed ∧ stepOnRampCompleted ∈ completedSteps) := by
  have hcan : t.canTransitionTo .failed = true ↔ t.status ≠ .funded ∧ t.status ≠ .failed := by
    unfold Transfer.canTransitionTo
    revert hstatus
    cases t.status <;> decide
  have hstep : t.status = .failed → (OnRampDone t completedSteps ext ↔ stepOnRampCompleted ∈ completedSteps) :=
    fun hfailed => onRampDone_otherwise (by rw [hfailed]; decide)
  obtain ⟨slug, hslug⟩ := hslug
  rw [execute_ok_iff hcreated hupdated]
  rcases determine_cases t tenant completedSteps ext with
    ⟨hplan, -⟩ | ⟨hplan, hdone, -⟩ | ⟨hdone, plan, hplan, hid, htenant, hstrategy⟩
  · rw [hplan] at hauto
    exact absurd rfl hauto
  · rw [hplan]
    refine (store_simpleRefund t hrow hslug rfl rfl rfl).trans ?_
    rw [hcan]
    constructor
    · rintro (hfailed | ⟨hfunded, hfailed⟩)
      · exact ⟨by rw [hfailed]; decide, fun h => hdone ((hstep hfailed).2 h.2)⟩
      · exact ⟨hfunded, fun h => hfailed h.1⟩
    · rintro ⟨hfunded, -⟩
      by_cases hfailed : t.status = .failed
      · exact .inl hfailed
      · exact .inr ⟨hfunded, hfailed⟩
  · rw [hplan, store_failing t hrow hid htenant (hstrategy.imp And.left And.left), hcan]
    exact and_congr_right fun _ => ⟨fun hfailed h => hfailed h.1, fun h hfailed => h ⟨hfailed, (hstep hfailed).1 hdone⟩⟩

theorem settling_executable :
    (execute (storeEngine noLookups) ⟨true, fun _ => true⟩
      (determineCompensation (bought .settling) ⟨"acme", []⟩ ["funded", "onramp_completed"] notConfirmed)
      (Store.holding (bought .settling) [])).1 = .ok () :=
  (compensation_executable_iff (bought .settling) ⟨"acme", []⟩ ["funded", "onramp_completed"] notConfirmed (by decide)
    (by decide +kernel) noLookups (Store.holding (bought .settling) []) rfl ⟨"acme", rfl⟩ ⟨true, fun _ => true⟩ rfl
    fun _ => rfl).2 (by decide)

/-- A FUNDED transfer cannot fail, and a FAILED one not once more, so the plans for both are
refused. -/
theorem funded_and_failed_refused :
    (execute (storeEngine noLookups) ⟨true, fun _ => true⟩
        (determineCompensation (bought .funded) ⟨"acme", []⟩ ["funded"] notConfirmed)
        (Store.holding (bought .funded) [])).1 =
        .error (.failingBeforeRefund (.invalidTransition "FUNDED" "FAILED")) ∧
      (execute (storeEngine noLookups) ⟨true, fun _ => true⟩
        (determineCompensation (bought .failed) ⟨"acme", []⟩ ["funded", "onramp_completed"] notConfirmed)
        (Store.holding (bought .failed) [])).1 =
        .error (.engine (.invalidTransition "FAILED" "FAILED")) := by
  decide +kernel

end Settla.Compensation
