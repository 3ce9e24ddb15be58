import Settla.Node.Results
import Settla.Proof.CreateTransfer
import Settla.Proof.Engine

/-!
# No transfer advances itself

The worker maps the engine's own events to calls that confirm the step. They do nothing: an event is
written only by the change that leaves the status its call would confirm, and a status never comes back.
-/

namespace Settla.Node

open Settla.Core Lib Lib.Feedback List

def awaiting : List TransferStatus := [.onRamping, .settling, .offRamping]

/-- How far a status is along the pipeline. -/
def stage : TransferStatus → ℕ
  | .created => 0
  | .funded => 1
  | .onRamping => 2
  | .settling => 3
  | .offRamping => 4
  | .completed => 5
  | .failed => 5
  | .refunding => 6
  | .refunded => 7

variable {out : List OutboxEntry} {e : OutboxEntry} {a b t : Transfer}

theorem stage_lt {a b : TransferStatus} (h : b ∈ validTransitions a) : stage a < stage b := by
  revert h
  cases a <;> cases b <;> decide

/-- The call moves no transfer out of an awaiting status this late. -/
def CallStale (c : EngineCall) (st : TransferStatus) : Prop :=
  ∀ mv ∈ c.moves, mv.1 ∈ awaiting → stage mv.1 < stage st

/-- An entry the transfer worker can no longer advance the row with. -/
def EntryStale (e : OutboxEntry) (t : Transfer) : Prop :=
  ∀ ev c, e.toEvent = some ev → engineCall ev = some c → CallStale c t.status

/-- The changes a caller may make: those of the call it makes. -/
def CallerMay : Origin OutboxEntry Report → Transfer → Transfer → List OutboxEntry → Prop
  | .fed e, a, b, out =>
    ∃ ev c, e.toEvent = some ev ∧ engineCall ev = some c ∧ AllowedBy c.moves a b out
  | .called r, a, b, out => AllowedBy r.result.call.moves a b out

variable {who : Origin OutboxEntry Report} {intents : List Intent} {ev : Event}

theorem CallerMay.allowed (h : CallerMay who a b out) : Allowed a b out := by
  cases who with
  | fed e =>
    obtain ⟨ev, c, -, -, -, hall⟩ := h
    exact hall
  | called r => exact h.2

theorem toEvent_outboxEntries {ty : Option EventType}
    (he : e ∈ outboxEntries t intents ty) (hev : e.toEvent = some ev) : ty = some ev.type := by
  simp only [outboxEntries, setCorrelationID, map_append, map_map, mem_append, mem_map,
    Option.mem_toList] at he
  rcases he with ⟨i, -, rfl⟩ | ⟨ty', hty, rfl⟩
  · cases hev
  · cases hev
    exact hty

/-- **An event is stale when it is written**: its call confirms no status the transfer can
still be in. -/
theorem event_stale {st : TransferStatus}
    (h : Transition t st intents (some ev.type)) {c : EngineCall} (hc : engineCall ev = some c) : CallStale c st := by
  generalize hty : some ev.type = ty at h
  unfold engineCall at hc
  cases h with
  | onRamp => cases hty
  -- these events have no call
  | complete | fail | refundEmpty | refundPosted | refunded =>
    rw [Option.some.inj hty] at hc
    cases hc
  | fund | onRampDone | onRampFailed | settled | settlementFailed | offRampFailed =>
    rw [Option.some.inj hty] at hc
    cases hc
    show ∀ mv ∈ _, _
    simp [EngineCall.moves, awaiting, stage]

theorem entries_stale (h : Allowed a b out) : ∀ e ∈ out, EntryStale e b := by
  obtain ⟨st, intents, ty, htr, rfl, rfl⟩ := h
  intro e he ev c hev hc
  obtain rfl := toEvent_outboxEntries he hev
  exact event_stale htr hc

theorem handleEntry_safe {id : UUID} {l : Lookups} {p : Optimistic.Prog Transfer OutboxEntry EngineResult}
    (h : handleEntry id l e = some p) : Optimistic.Safe Transfer.version (CallerMay (.fed e)) none p := by
  unfold handleEntry at h
  split at h
  · cases h
  rename_i ev hev
  split at h
  · cases h
  obtain ⟨c, hc, rfl⟩ := Option.map_eq_some_iff.1 h
  exact (prog_moves _).mono fun a b out hall => ⟨ev, c, hev, hc, hall⟩

theorem callers_rules (id : UUID) :
    Rules Transfer.version (handleEntry id) Report.prog CallerMay EntryStale where
  react _ _ _ h := handleEntry_safe h
  calls r := prog_moves ⟨r.tenantID, r.lookups, r.result.call⟩
  version _ _ _ _ h := h.allowed.version
  emits _ _ _ _ h := entries_stale h.allowed
  stays _ _ _ _ h _ he ev c hev hc mv hmv hwait := (he ev c hev hc mv hmv hwait).trans (stage_lt h.allowed.edge)

theorem CallerMay.of_awaiting (h : CallerMay who a b out)
    (hover : Overtaken EntryStale who a) (ha : a.status ∈ awaiting) :
    ∃ r, who = .called r ∧ r.result.awaitedIn = a.status := by
  cases who with
  | fed e =>
    -- a stale event would have to move a transfer that is already further on
    obtain ⟨ev, c, hev, hc, hmv, -⟩ := h
    exact absurd (hover e rfl ev c hev hc _ hmv ha) (lt_irrefl _)
  | called r =>
    refine ⟨r, rfl, ?_⟩
    have hmv := h.1
    cases hr : r.result <;> rw [hr] at hmv <;>
      simp [StepResult.call, EngineCall.moves] at hmv <;>
      rcases hmv with hmv | hmv <;> exact hmv.1.symm

/-- The callers of the engine and the row of a transfer after a run. -/
def advance (t : Transfer) (entries : List OutboxEntry) (as : List (Threads.Action (Start Lookups Report) ℕ)) :
    Threads.System (Shared Transfer OutboxEntry) ℕ CallerLabel (Option EngineResult) :=
  run (Threads.System.act (callers t.id)) (Threads.System.init ⟨t, entries⟩) as

theorem created_stale {e : CreateEnv} {tenantID : UUID} {req : CreateTransferRequest}
    {entries : List OutboxEntry} (h : createTransfer e tenantID req = .ok (.row t entries)) :
    ∀ w ∈ entries, EntryStale w t := by
  obtain ⟨-, -, rfl⟩ := createTransfer_row h
  intro w hw ev c hev hc
  obtain rfl := mem_singleton.1 hw
  cases hev
  cases hc
  show ∀ mv ∈ _, _
  simp [EngineCall.moves, awaiting]

/-- **No self-advance.** However the workers interleave on a new transfer: one that awaits the
result of a step changes only when a call with a result of that very step writes, and the write of a
call made for an event changes nothing. -/
theorem results_only {e : CreateEnv} {tenantID : UUID} {req : CreateTransferRequest} {t : Transfer}
    {entries : List OutboxEntry} (h : createTransfer e tenantID req = .ok (.row t entries))
    (as : List (Threads.Action (Start Lookups Report) ℕ)) :
    let s := advance t entries as
    s.state.row.status ∈ awaiting →
      (∀ a, (s.act (callers t.id) a).state ≠ s.state →
        ∃ i n r known, a = .step i n ∧ s.positions[i]? = some (.before (.write (.called r) known)) ∧
          r.result.awaitedIn = s.state.row.status) ∧
      (∀ i n w known, s.positions[i]? = some (.before (.write (.fed w) known)) →
        (s.act (callers t.id) (.step i n)).state = s.state) := by
  intro s hwait
  have hstale : ∀ w ∈ (Shared.mk t entries).out, EntryStale w (Shared.mk t entries).row := created_stale h
  obtain ⟨hfollow, hinv⟩ := run_inv (callers_rules t.id) hstale as
  have hresult : ∀ a, (s.act (callers t.id) a).state ≠ s.state →
      ∃ i n r known, a = .step i n ∧ s.positions[i]? = some (.before (.write (.called r) known)) ∧
        r.result.awaitedIn = s.state.row.status := by
    intro a hne
    obtain ⟨-, heff⟩ := Threads.act_cases (code_follows (callers_rules t.id)) hfollow a
    obtain ⟨i, n, who, known, b, out, rfl, hi, hmay, hover, -⟩ := (change_cases hinv heff).resolve_left hne
    obtain ⟨r, rfl, hr⟩ := hmay.of_awaiting hover hwait
    exact ⟨i, n, r, known, rfl, hi, hr⟩
  refine ⟨hresult, fun i n w known hi => ?_⟩
  by_contra hne
  obtain ⟨i', n', r, known', hstep, hi', -⟩ := hresult _ hne
  cases hstep
  rw [hi] at hi'
  cases hi'

def sampleAdvance : List (Threads.Action (Start Lookups Report) ℕ) :=
  let found : Lookups := ⟨fun _ _ => none, fun _ => some "acme"⟩
  [.start (.receive found), .step 0 0, .step 0 0, .step 0 0,
    .start (.receive found), .step 1 2, .step 1 0, .step 1 0,
    .start (.call ⟨1, found, .onRamp ⟨true, "", ""⟩⟩), .step 2 0]

theorem results_only_onRamp :
    let s := advance (sampleRow 7) (sampleEntries 7) sampleAdvance
    s.state.row.status = .onRamping ∧ (s.act (callers 7) (.step 2 0)).state.row.status = .settling ∧
      ∃ r known, s.positions[2]? = some (.before (.write (.called r) known)) ∧
        r.result.awaitedIn = s.state.row.status := by
  intro s
  have hstatus : s.state.row.status = .onRamping := by decide +kernel
  have hleft : (s.act (callers 7) (.step 2 0)).state.row.status = .settling := by decide +kernel
  refine ⟨hstatus, hleft, ?_⟩
  obtain ⟨i, n, r, known, hstep, hi, hr⟩ := (results_only sample_created sampleAdvance (by decide +kernel)).1
    (.step 2 0) (fun heq => by
      have hrow : (s.act (callers 7) (.step 2 0)).state.row.status = s.state.row.status :=
        congrArg (fun x => x.row.status) heq
      rw [hleft, hstatus] at hrow
      cases hrow)
  cases hstep
  exact ⟨r, known, hi, hr⟩

end Settla.Node
