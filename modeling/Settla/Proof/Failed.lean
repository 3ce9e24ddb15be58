import Settla.Proof.Manager

/-!
# What a failed treasury operation leaves behind

Every error after the idempotency key is claimed puts the counters and the key back. What stays: the keys
a full shard dropped to make room, the event, and the row of the log once the database has it.
-/

namespace Settla.Treasury

open List

/-- Counters, claimed keys, log and queued events are as they were. -/
structure NoTrace (w w' : World) : Prop where
  counters : w'.mgr.positions = w.mgr.positions
  keys : w'.mgr.idempotencyShards = w.mgr.idempotencyShards
  log : w'.db.reserveOps = w.db.reserveOps
  events : w'.mgr.pendingEvents = w.mgr.pendingEvents

/-- The shard of a key has room, or nothing that a forced cleanup would drop. -/
def Roomy (m : Manager) (now : Time) (key : IdempotencyKey) : Prop :=
  let items := m.idempotencyShards (idempotencyShardFor key)
  Manager.maxIdempotencyMapSize / 16 ≤ items.length → ∀ it ∈ items, now - Manager.forcedCleanupMaxAge ≤ it.2

/-- A call that passes its checks drops no keys. One that also changes the counters has not reached
the log, and queues no event. -/
structure Traceless (o : OpSpec) (w : World) (e : CallEnv) (k : PositionKey) (amount : Decimal) (ref : UUID) : Prop where
  keys : Admits o w amount → Roomy w.mgr e.now ⟨ref, o.op⟩
  log : Admits o w amount → Allowed o w k amount ref → w.mgr.replaying = true ∨ e.wal = .err
  events : Admits o w amount → Allowed o w k amount ref →
    o.event = none ∨ Manager.pendingEventsCap ≤ w.mgr.pendingEvents.length

variable {o : OpSpec} {w w' : World} {e : CallEnv} {k : PositionKey} {amount : Decimal} {ref : UUID}
  {refType : String} {err : Err}

/-! ## Keys -/

theorem forcedCleanup_eq_iff {now : Time} {items : List (IdempotencyKey × Time)} :
    Manager.forcedCleanup now items = items ↔
      (Manager.maxIdempotencyMapSize / 16 ≤ items.length → ∀ it ∈ items, now - Manager.forcedCleanupMaxAge ≤ it.2) := by
  unfold Manager.forcedCleanup
  split
  · rename_i hfull
    rw [filter_eq_self]
    simp only [hfull, forall_const, Bool.not_eq_true', decide_eq_false_iff_not, not_lt]
  · rename_i hfull
    simp only [hfull, false_imp_iff]

theorem rollback_acquire_iff {m : Manager} {now : Time} {key : IdempotencyKey} (hfree : m.held key = false) :
    ((m.acquire now key).rollbackIdempotency key).idempotencyShards = m.idempotencyShards ↔ Roomy m now key := by
  have hother : ∀ it ∈ m.idempotencyShards (idempotencyShardFor key), it.1 ≠ key := by
    rintro it hit rfl
    rw [Manager.held_iff.2 ⟨it.2, hit⟩] at hfree
    cases hfree
  have hshard : ((m.acquire now key).rollbackIdempotency key).idempotencyShards (idempotencyShardFor key) =
      Manager.forcedCleanup now (m.idempotencyShards (idempotencyShardFor key)) := by
    rw [Manager.rollback_shard, if_pos rfl, Manager.acquire_shard, if_pos rfl, filter_cons_of_neg (by simp),
      filter_eq_self]
    intro it hit
    simp [hother it (Manager.mem_forcedCleanup.1 hit).1]
  rw [Roomy, ← forcedCleanup_eq_iff, ← hshard]
  constructor
  · intro h
    rw [h]
  · intro h
    funext s
    by_cases hs : s = idempotencyShardFor key
    · rw [hs, h]
    · rw [Manager.rollback_shard, if_neg hs, Manager.acquire_shard, if_neg hs]

/-! ## Log and events -/

theorem logged_reserveOps_iff (row : OpRow) :
    (w.logged e row).reserveOps = w.db.reserveOps ↔ w.mgr.replaying = true ∨ e.wal = .err := by
  unfold World.logged DB.insertReserveOp
  cases w.mgr.replaying <;> cases e.wal <;> simp [StoreResult.kept]

theorem update_events_iff (m : Manager) (now : Time) (ps : PositionState) :
    (o.update m now k ps amount ref refType).pendingEvents = m.pendingEvents ↔
      o.event = none ∨ Manager.pendingEventsCap ≤ m.pendingEvents.length := by
  unfold OpSpec.update
  cases hev : o.event with
  | none => exact iff_of_true rfl (.inl rfl)
  | some ev =>
    simp only [reduceCtorEq, false_or]
    unfold Manager.queueEvent
    split
    · rename_i hroom
      have hroom : m.pendingEvents.length < Manager.pendingEventsCap := hroom
      simp [Manager.markDirty, Manager.setPosition, hroom]
    · rename_i hroom
      have hroom : ¬ m.pendingEvents.length < Manager.pendingEventsCap := hroom
      exact iff_of_true rfl (not_lt.1 hroom)

theorem finish_err {a : ℤ} {ps : PositionState} (h : o.finish w e k amount a ps = (w', .err err)) :
    w'.db.reserveOps = w.db.reserveOps ∧ w'.mgr.pendingEvents = w.mgr.pendingEvents := by
  unfold OpSpec.finish at h
  rw [syncFlush_eq] at h
  simp only at h
  split at h
  · split at h
    · cases h
    · rename_i heq
      obtain ⟨rfl, -⟩ := Prod.mk.inj heq
      split at h
      · cases h
        refine ⟨?_, rfl⟩
        show (w.db.flushed e ps).reserveOps = _
        unfold DB.flushed
        split <;> rfl
      · cases h
  · cases h

/-- **What an operation has done by the time it fails**: nothing, or the update with its event, and
what the log kept. -/
theorem opBody_err (h : opBody o w e k amount ref refType = (w', .err err)) :
    (¬ Allowed o w k amount ref ∧ w' = w) ∨
    (Allowed o w k amount ref ∧ w'.db.reserveOps = (w.logged e ⟨k, amount, ref, o.op, e.now⟩).reserveOps ∧
      ∃ ps, w'.mgr.pendingEvents = (o.update w.mgr e.now k ps amount ref refType).pendingEvents) := by
  by_cases hal : Allowed o w k amount ref
  case neg =>
    obtain ⟨r, heq, -⟩ := opBody_refused hal
    exact .inl ⟨hal, (congrArg Prod.fst (heq.symm.trans h)).symm⟩
  obtain ⟨ps, a, hps, ha, hg⟩ := hal
  refine .inr ⟨⟨ps, a, hps, ha, hg⟩, ?_⟩
  obtain ⟨m₁, err', -, hm₁, heq⟩ := opBody_allowed hps ha hg
  rw [heq] at h
  split at h
  · obtain ⟨hops, hevents⟩ := finish_err h
    exact ⟨hops, _, hevents.trans (congrArg Manager.pendingEvents hm₁)⟩
  · cases h
    exact ⟨rfl, o.effect.apply a ps, hm₁ ▸ rfl⟩

/-! ## Calls -/

theorem runOp_err (h : runOp o w e k amount ref refType = (w', .err err)) :
    (¬ Admits o w amount ∧ w' = w) ∨
    (Admits o w amount ∧ w.mgr.held ⟨ref, o.op⟩ = false ∧
      ∃ w₁, opBody o { w with mgr := w.mgr.acquire e.now ⟨ref, o.op⟩ } e k amount ref refType = (w₁, .err err) ∧
        w' = { w₁ with mgr := w₁.mgr.rollbackIdempotency ⟨ref, o.op⟩ }) := by
  rcases runOp_cases o w e k amount ref refType with ⟨hno, err', heq⟩ | ⟨-, -, heq⟩ | ⟨hadm, hheld, heq⟩
  · cases heq.symm.trans h
    exact .inl ⟨hno, rfl⟩
  · cases heq.symm.trans h
  · rw [heq] at h
    refine .inr ⟨hadm, hheld, ?_⟩
    rcases hb : opBody o { w with mgr := w.mgr.acquire e.now ⟨ref, o.op⟩ } e k amount ref refType with ⟨w₁, r₁⟩
    rw [hb] at h
    cases r₁ with
    | nil | panic => cases h
    | err err' =>
      cases h
      exact ⟨w₁, rfl, rfl⟩

/-- **A failing call leaves no trace exactly if** it is turned away before its key is claimed, or is
traceless. -/
theorem noTrace_iff (op : ReserveOpType) (w w' : World) (e : CallEnv) (k : PositionKey) (amount : Decimal) (ref : UUID)
    (refType : String) (err : Err) (h : w.exec e (.op op k amount ref refType) = (w', .err err)) :
    NoTrace w w' ↔ Traceless (specOf op) w e k amount ref := by
  have hout := exec_op h
  have hrun : ∃ refType, runOp (specOf op) w e k amount ref refType = (w', .err err) := by
    cases op <;> exact ⟨_, h⟩
  obtain ⟨refType, hrun⟩ := hrun
  rcases runOp_err hrun with ⟨hno, rfl⟩ | ⟨hadm, hfree, w₁, hbody, rfl⟩
  · exact iff_of_true ⟨rfl, rfl, rfl, rfl⟩ ⟨fun ha => absurd ha hno, fun ha => absurd ha hno, fun ha => absurd ha hno⟩
  have hcounters : w₁.mgr.positions = w.mgr.positions := by
    rcases outcome_effect hout nofun with ⟨hpos, -⟩ | ⟨hr, -⟩
    · exact hpos
    · cases hr
  have hkeys : (w₁.mgr.rollbackIdempotency ⟨ref, (specOf op).op⟩).idempotencyShards = w.mgr.idempotencyShards ↔
      Roomy w.mgr e.now ⟨ref, (specOf op).op⟩ := by
    rcases opBody_cases hbody with ⟨hr, -⟩ | ⟨_, _, -, hshards, -⟩ | ⟨_, _, hr, -⟩
    · cases hr
    · rw [← rollback_acquire_iff hfree]
      simp only [Manager.rollbackIdempotency, hshards]
    · cases hr
  rcases opBody_err hbody with ⟨hno, rfl⟩ | ⟨hallowed, hlog, ps, hevents⟩
  -- refused: the keys are all there is
  · constructor
    · intro ht
      exact ⟨fun _ => hkeys.1 ht.keys, fun _ ha => absurd ha hno, fun _ ha => absurd ha hno⟩
    · intro ht
      exact ⟨rfl, hkeys.2 (ht.keys hadm), rfl, rfl⟩
  · have hlog : w₁.db.reserveOps = w.db.reserveOps ↔ w.mgr.replaying = true ∨ e.wal = .err := by
      rw [hlog]
      exact logged_reserveOps_iff _
    have hevents : w₁.mgr.pendingEvents = w.mgr.pendingEvents ↔
        (specOf op).event = none ∨ Manager.pendingEventsCap ≤ w.mgr.pendingEvents.length := by
      rw [hevents]
      exact update_events_iff _ _ _
    constructor
    · intro ht
      exact ⟨fun _ => hkeys.1 ht.keys, fun _ _ => hlog.1 ht.log, fun _ _ => hevents.1 ht.events⟩
    · intro ht
      exact ⟨hcounters, hkeys.2 (ht.keys hadm), hlog.2 (ht.log hadm hallowed), hevents.2 (ht.events hadm hallowed)⟩

/-! ### Two traces -/

def hundred : World := single usdPosition ⟨1, 0, 100000000, 0, 0⟩

theorem hundred_refused : NoTrace hundred (hundred.exec ⟨0, .ok, true, .ok⟩ (.op .reserve usdPosition 200 1 "")).1 ↔
    Traceless reserveSpec hundred ⟨0, .ok, true, .ok⟩ usdPosition 200 1 :=
  noTrace_iff .reserve hundred _ _ usdPosition 200 1 "" (.insufficientFunds "USD" "bank:usd") (by
    rw [Prod.ext_iff]
    exact ⟨rfl, by decide +kernel⟩)

/-- **A reservation that fails on a full channel stays in the log**, and a credit the log refuses is
reported as an event. -/
theorem failed_traced :
    (hundred.exec ⟨0, .ok, false, .ok⟩ (.op .reserve usdPosition 30 1 "")).2 = .err (.channelFull .reserve 1) ∧
    (hundred.exec ⟨0, .ok, false, .ok⟩ (.op .reserve usdPosition 30 1 "")).1.db.reserveOps =
      [⟨usdPosition, 30, 1, .reserve, 0⟩] ∧
    (hundred.exec ⟨0, .err, true, .ok⟩ (.op .credit usdPosition 5 2 "deposit")).2 = .err (.walWriteFailed .credit 2) ∧
    (hundred.exec ⟨0, .err, true, .ok⟩ (.op .credit usdPosition 5 2 "deposit")).1.mgr.pendingEvents =
      [⟨1, 1, .credit, 5, 105, 0, 2, "deposit", 0⟩] := by
  decide +kernel

end Settla.Treasury
