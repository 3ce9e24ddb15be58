import Settla.Node.Saga
import Settla.Proof.CreateTransfer
import Settla.Proof.Engine

/-!
# Reservation and on-ramp

`SagaInv` ties an on-ramp to a reservation. Only a `transfer.funded` event that arrives before the
reservation has succeeded (`ReserveFirst`) breaks it: `handleEvent` starts the on-ramp for it as well.
-/

namespace Settla.Node

open Lib Settla.Core Treasury List

/-! ## Events and intents of the outbox -/

variable {intents : List Intent} {t : Transfer}

@[simp] theorem eventsOf_append (xs ys : List OutboxEntry) : eventsOf (xs ++ ys) = eventsOf xs ++ eventsOf ys :=
  filterMap_append

theorem eventsOf_outboxEntries (t : Transfer) (intents : List Intent) (ev : Option EventType) :
    eventsOf (outboxEntries t intents ev) = ev.toList.map fun x => ⟨x, t.tenantID, t.id, none, none⟩ := by
  have hint : List.filterMap OutboxEntry.toEvent
      (intents.map fun i => { newOutboxIntent "transfer" t.id t.tenantID i with correlationID := t.id }) = [] := by
    rw [filterMap_map]
    exact filterMap_eq_nil_iff.2 fun _ _ => rfl
  simp only [eventsOf, outboxEntries, setCorrelationID, map_append, map_map, filterMap_append,
    Function.comp_def, hint, nil_append]
  cases ev <;> rfl

variable {ev : Option EventType} {text : Err → String} {e : CallEnv} {i : Intent}

theorem transition_onRamp {st : TransferStatus} {p : ProviderOnRampPayload}
    (h : Transition t st intents ev) (hp : .providerOnRamp p ∈ intents) : st = .onRamping ∧ p.transferID = t.id := by
  cases h with
  | onRamp hs hid =>
    simp only [mem_singleton, Intent.providerOnRamp.injEq] at hp
    exact ⟨rfl, hp ▸ hid⟩
  | _ => simp [reserveIntent, releaseIntent, consumeIntent, webhookIntent] at hp

theorem engineCall_onRamping {ev : Event} {c : EngineCall} (h : engineCall ev = some c)
    (hc : (TransferStatus.funded, TransferStatus.onRamping) ∈ c.moves) :
    ev.type = .transferFunded ∨ ev.type = .treasuryReserved := by
  unfold engineCall at h
  split at h
  -- `transfer.funded` and `treasury.reserved` lead to the same method
  case h_2 htype => exact .inl htype
  case h_3 htype => exact .inr htype
  all_goals first | cases h; done | (cases h; simp [EngineCall.moves, failMoves] at hc)

/-! ## The worker -/

theorem execute_reserved {s : Worker} {ev : Event}
    (h : (s.execute text e i).2 = some ev) (htype : ev.type = .treasuryReserved) :
    (s.execute text e i).1.Reserved ev.transferID := by
  cases i with
  | treasuryReserve p =>
    simp only [Worker.execute, handleIntent, handleReserve] at h ⊢
    cases hr : (s.treasury.reserve e ⟨p.tenantID, p.currency, p.location⟩ p.amount p.transferID).2 with
    | nil =>
      rw [hr] at h
      cases h
      exact ⟨_, mem_append_right _ mem_cons_self, rfl, p, rfl, rfl⟩
    -- an error is published as `treasury.failed`
    | err err => rw [hr] at h; cases h; cases htype
    | panic => rw [hr] at h; cases h
  | treasuryRelease p =>
    cases h; cases htype
  | treasuryConsume p =>
    simp only [Worker.execute, handleIntent, handleConsume] at h
    cases hr : (s.treasury.consumeReservation e ⟨p.tenantID, p.currency, p.location⟩ p.amount p.transferID).2 with
    | nil | err => rw [hr] at h; cases h; cases htype
    | panic => rw [hr] at h; cases h
  | _ => cases h

theorem Worker.Reserved.mono {s : Worker} {id : UUID} (h : s.Reserved id) : (s.execute text e i).1.Reserved id := by
  obtain ⟨x, hx, hrest⟩ := h
  unfold Worker.execute
  split
  · exact ⟨x, hx, hrest⟩
  · exact ⟨x, mem_append_left _ hx, hrest⟩

/-! ## The rows -/

theorem create_ids {s : Store} (h : ∀ id t, s.transfers id = some t → t.id = id) (e : CreateEnv) (tenantID : UUID)
    (req : CreateTransferRequest) : ∀ id t, (s.create e tenantID req).transfers id = some t → t.id = id := by
  rcases create_cases s e tenantID req with hsame | ⟨t, -, -, hnew⟩
  · rw [hsame]; exact h
  rw [hnew]
  intro id t' ht'
  by_cases hid : id = t.id
  · subst hid; simp at ht'; rw [← ht']
  · simp [hid] at ht'; exact h id t' ht'

theorem call_ids {s : Store} (h : ∀ id t, s.transfers id = some t → t.id = id) (id : UUID) (inv : Invocation) :
    ∀ id' t, (s.call id inv).1.transfers id' = some t → t.id = id' := by
  rcases call_cases s id inv with hsame | ⟨t, st, intents, ev, ht, -, -, -, -, hnew⟩
  · rw [hsame]; exact h
  rw [hnew]
  intro id' t' ht'
  by_cases heq : id' = id
  · subst heq; simp at ht'; rw [← ht']; exact h id' t ht
  · simp [heq] at ht'; exact h id' t' ht'

/-! ## The invariant -/

/-- An on-ramp has a reservation behind it. -/
structure SagaInv (s : Saga) : Prop where
  ids : ∀ id t, s.store.transfers id = some t → t.id = id
  outbox : ∀ ev ∈ eventsOf s.store.outbox, ev.type ≠ .treasuryReserved
  bus : ∀ ev ∈ s.bus, ev.type = .treasuryReserved → s.worker.Reserved ev.transferID
  onRamp : ∀ p, .providerOnRamp p ∈ intentsOf s.store.outbox → s.worker.Reserved p.transferID
  ramping : ∀ id t, s.store.transfers id = some t → t.status = .onRamping → s.worker.Reserved id

/-- The step is not a `transfer.funded` event for a transfer in FUNDED whose
reservation has not succeeded yet. -/
def ReserveFirst (s : Saga) : SagaStep → Prop
  | .deliver _ ev => ev.type = .transferFunded → ∀ t, s.store.transfers ev.transferID = some t →
      t.status = .funded → s.worker.Reserved ev.transferID
  | _ => True

theorem start_inv (w : World) : SagaInv (Saga.start w) where
  ids := by intro id t h; cases h
  outbox := by intro ev h; cases h
  bus := by intro ev h; cases h
  onRamp := by intro p h; cases h
  ramping := by intro id t h; cases h

variable {s : Saga}

theorem create_inv (hs : SagaInv s) (e : CreateEnv) (tenantID : UUID) (req : CreateTransferRequest) :
    SagaInv { s with store := s.store.create e tenantID req } := by
  have hids := create_ids hs.ids e tenantID req
  rcases create_cases s.store e tenantID req with h | ⟨t, hrow, hnone, h⟩
  · rw [h]; exact hs
  rw [h] at hids ⊢
  refine ⟨hids, ?_, hs.bus, ?_, ?_⟩
  · intro ev hev
    rw [eventsOf_append] at hev
    rcases mem_append.1 hev with hev | hev
    · exact hs.outbox ev hev
    · simp [eventsOf, setCorrelationID, newOutboxEvent, OutboxEntry.toEvent] at hev
      rw [hev]; simp
  · intro p hp
    rw [intentsOf_append] at hp
    rcases mem_append.1 hp with hp | hp
    · exact hs.onRamp p hp
    · simp [intentsOf, setCorrelationID, newOutboxEvent, OutboxEntry.intent] at hp
  · intro id t' ht' hst
    by_cases hid : id = t.id
    · subst hid; simp at ht'; rw [← ht', hrow.status] at hst; cases hst
    · simp [hid] at ht'; exact hs.ramping id t' ht' hst

theorem call_inv (hs : SagaInv s) (id : UUID) (inv : Invocation)
    (hramp : ∀ t, s.store.transfers id = some t → t.status = .funded → (.funded, .onRamping) ∈ inv.call.moves →
      s.worker.Reserved id) :
    SagaInv { s with store := (s.store.call id inv).1 } := by
  have hids := call_ids hs.ids id inv
  rcases call_cases s.store id inv with h | ⟨t, st, intents, ev, ht, -, -, hst, htr, h⟩
  · rw [h]; exact hs
  have hid := hs.ids id t ht
  -- the step to ON_RAMPING is the only one that needs a reservation
  have hres : st = .onRamping → s.worker.Reserved id := by
    rintro rfl
    have hfunded : t.status = .funded := by cases htr with | onRamp hs => exact hs
    exact hramp t ht hfunded (hfunded ▸ hst)
  rw [h] at hids ⊢
  refine ⟨hids, ?_, hs.bus, ?_, ?_⟩
  · intro x hx
    rw [eventsOf_append, eventsOf_outboxEntries] at hx
    rcases mem_append.1 hx with hx | hx
    · exact hs.outbox x hx
    · cases ev with
      | none => cases hx
      | some ev =>
        simp at hx
        rw [hx]; cases htr <;> nofun
  · intro p hp
    rw [intentsOf_append, intentsOf_outboxEntries] at hp
    rcases mem_append.1 hp with hp | hp
    · exact hs.onRamp p hp
    · obtain ⟨hst', hpid⟩ := transition_onRamp htr hp
      rw [hpid, hid]; exact hres hst'
  · intro id' t' ht' hst'
    by_cases heq : id' = id
    · subst heq; simp at ht'; rw [← ht'] at hst'; exact hres hst'
    · simp [heq] at ht'; exact hs.ramping id' t' ht' hst'

theorem execute_inv (hs : SagaInv s) (text : Err → String) (e : CallEnv) (i : Intent) (published : Bool) :
    SagaInv { s with
      worker := (s.worker.execute text e i).1
      bus := if published then s.bus ++ (s.worker.execute text e i).2.toList else s.bus } := by
  refine ⟨hs.ids, hs.outbox, ?_, fun p hp => (hs.onRamp p hp).mono, fun id t ht hst => (hs.ramping id t ht hst).mono⟩
  intro ev hev htype
  split at hev
  · rcases mem_append.1 hev with hev | hev
    · exact (hs.bus ev hev htype).mono
    · exact execute_reserved (Option.mem_toList.1 hev) htype
  · exact (hs.bus ev hev htype).mono

theorem step_inv (text : Err → String) (s : Saga) (i : SagaStep) (hs : SagaInv s) (hi : ReserveFirst s i) :
    SagaInv (s.step text i) := by
  cases i with
  | create e tenantID req => exact create_inv hs e tenantID req
  | deliver l ev =>
    unfold Saga.step
    simp only
    split
    · rename_i hav
      unfold handleEvent
      split
      · exact hs
      · rename_i c hc
        refine call_inv hs ev.transferID ⟨ev.tenantID, l, c⟩ fun t ht hst htarget => ?_
        rcases engineCall_onRamping hc htarget with htype | htype
        -- the condition is about this event only
        · exact hi htype t ht hst
        · -- `treasury.reserved` only ever comes from the bus
          rcases hav with hout | hbus | hprov
          · exact absurd htype (hs.outbox ev hout)
          · exact hs.bus ev hbus htype
          · rw [htype] at hprov; simp [providerResults] at hprov
    · exact hs
  | execute e i published =>
    unfold Saga.step
    simp only
    split
    · exact execute_inv hs text e i published
    · exact hs

/-- **Reservation precedes on-ramp.** If no `transfer.funded` event meets a funded transfer without
a reservation, only a transfer whose Reserve has succeeded gets an on-ramp intent or is in
ON_RAMPING. -/
theorem onRamp_after_reserve (text : Err → String) (w : World) (steps : List SagaStep)
    (h : Along (Saga.step text) ReserveFirst (Saga.start w) steps) :
    let s := run (Saga.step text) (Saga.start w) steps
    (∀ p, .providerOnRamp p ∈ intentsOf s.store.outbox → s.worker.Reserved p.transferID) ∧
    (∀ id t, s.store.transfers id = some t → t.status = .onRamping → s.worker.Reserved id) := by
  intro s
  have hs : SagaInv s := run_preserves (step_inv text) (start_inv w) h
  exact ⟨hs.onRamp, hs.ramping⟩

def poundTreasury : World :=
  let k : PositionKey := ⟨1, "GBP", "bank:gbp"⟩
  ⟨newManager.setPosition k ⟨3, 0, 5000000000, 0, 0⟩, ⟨[⟨3, k, 5000, 0, 0⟩], []⟩⟩

def noLookups : Lookups := ⟨fun _ _ => none, fun _ => none⟩

def orderlySteps : List SagaStep :=
  [.create (sampleEnv 7) 1 sampleRequest,
    .deliver noLookups ⟨.transferCreated, 1, 7, none, none⟩,
    .execute ⟨0, .ok, true, .ok⟩ (.treasuryReserve ⟨7, 1, "GBP", 1000, "bank:gbp"⟩) true,
    .deliver noLookups ⟨.treasuryReserved, 1, 7, some "", none⟩,
    .deliver noLookups ⟨.transferFunded, 1, 7, none, none⟩]

theorem onRamp_after_reserve_orderly :
    ((run (Saga.step fun _ => "") (Saga.start poundTreasury) orderlySteps).store.transfers 7).map (·.status)
      = some .onRamping ∧
    (run (Saga.step fun _ => "") (Saga.start poundTreasury) orderlySteps).worker.Reserved 7 := by
  have hst : ((run (Saga.step fun _ => "") (Saga.start poundTreasury) orderlySteps).store.transfers 7).map
      (·.status) = some .onRamping := by decide +kernel
  have hbefore : ((run (Saga.step fun _ => "") (Saga.start poundTreasury) (orderlySteps.take 4)).store.transfers 7).map
      (·.status) = some .onRamping := by decide +kernel
  have hrun : Along (Saga.step fun _ => "") ReserveFirst (Saga.start poundTreasury) orderlySteps := by
    refine ⟨trivial, nofun, trivial, nofun, ?_, trivial⟩
    intro _ t ht hfunded
    have hsome : (some t).map (·.status) = some .onRamping := ht ▸ hbefore
    simp [hfunded] at hsome
  obtain ⟨t, ht, hramp⟩ := Option.map_eq_some_iff.1 hst
  exact ⟨hst, (onRamp_after_reserve (fun _ => "") poundTreasury orderlySteps hrun).2 7 t ht hramp⟩

def hastySteps : List SagaStep :=
  [.create (sampleEnv 7) 1 sampleRequest,
    .deliver noLookups ⟨.transferCreated, 1, 7, none, none⟩,
    .execute ⟨0, .ok, true, .ok⟩ (.treasuryReserve ⟨7, 1, "GBP", 1000, "bank:gbp"⟩) true,
    .deliver noLookups ⟨.treasuryFailed, 1, 7, some "", none⟩,
    .deliver noLookups ⟨.transferFunded, 1, 7, none, none⟩]

/-- **An on-ramp without a reservation**: the only Reserve has failed, and yet the transfer is in
ON_RAMPING. -/
theorem onRamp_without_reserve :
    let s := run (Saga.step fun _ => "") (Saga.start ⟨newManager, ⟨[], []⟩⟩) hastySteps
    (s.store.transfers 7).map (·.status) = some .onRamping ∧
    (∃ p, .providerOnRamp p ∈ intentsOf s.store.outbox ∧ p.transferID = 7) ∧
    (∃ x ∈ s.worker.history, ∃ err, x.result = .err err) ∧ ¬ s.worker.Reserved 7 := by
  intro s
  have hres : s.worker.history.map (·.result) = [.err (.insufficientFunds "GBP" "bank:gbp")] := by decide +kernel
  refine ⟨by decide +kernel, ⟨⟨7, 1, "ramp", 1000, "GBP", "USDT", UUID.string 7, [], 1900⟩, by decide +kernel, rfl⟩, ?_, ?_⟩
  · obtain ⟨x, hx, hr⟩ := map_eq_singleton_iff.1 hres
    exact ⟨x, hx ▸ mem_cons_self, _, hr⟩
  · rintro ⟨x, hx, hnil, -⟩
    have hmem : x.result ∈ s.worker.history.map (·.result) := mem_map_of_mem hx
    rw [hres, hnil] at hmem
    simp at hmem

end Settla.Node
