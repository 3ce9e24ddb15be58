import Settla.Treasury.Manager

/-!
# What a treasury operation can do

`runOp_outcome`, for all six operations: a call is rejected before its key is claimed, is a duplicate,
panics, fails and is rolled back, or is applied. Every result about the manager starts from it.
-/

namespace Settla.Treasury

open Lib List Function

/-! ## Idempotency keys -/

namespace Manager

variable {m m' : Manager} {now : Time} {key key' : IdempotencyKey}

variable {db : DB} {dirty : List PositionKey} {op : ReserveOpType}

theorem held_iff : m.held key = true ↔ ∃ t, (key, t) ∈ m.idempotencyShards (idempotencyShardFor key) := by
  simp [held]

theorem held_congr (h : m'.idempotencyShards = m.idempotencyShards) : m'.held key = m.held key := by
  simp [held, h]

theorem mem_forcedCleanup {items : List (IdempotencyKey × Time)} {it : IdempotencyKey × Time} :
    it ∈ forcedCleanup now items ↔
      it ∈ items ∧ (maxIdempotencyMapSize / 16 ≤ items.length → now ≤ it.2 + forcedCleanupMaxAge) := by
  unfold forcedCleanup
  split
  · rename_i hfull
    simp only [mem_filter, Bool.not_eq_true', decide_eq_false_iff_not, not_lt, hfull, forall_const,
      tsub_le_iff_right]
  · rename_i hfull
    simp only [hfull, false_imp_iff, and_true]

theorem acquire_shard (s : Fin 16) : (m.acquire now key).idempotencyShards s =
    if s = idempotencyShardFor key then (key, now) :: forcedCleanup now (m.idempotencyShards s)
    else m.idempotencyShards s := by
  unfold acquire
  by_cases h : s = idempotencyShardFor key
  · subst h; simp
  · simp [h]

theorem rollback_shard (s : Fin 16) : (m.rollbackIdempotency key).idempotencyShards s =
    if s = idempotencyShardFor key then (m.idempotencyShards s).filter fun it => !decide (it.1 = key)
    else m.idempotencyShards s := by
  unfold rollbackIdempotency
  by_cases h : s = idempotencyShardFor key
  · subst h; simp
  · simp [h]

@[simp] theorem held_acquire_self : (m.acquire now key).held key = true := by
  simp [held, acquire_shard]

theorem held_of_acquire (h : (m.acquire now key).held key' = true) : key' = key ∨ m.held key' = true := by
  obtain ⟨t, ht⟩ := held_iff.1 h
  rw [acquire_shard] at ht
  split at ht
  · rcases mem_cons.1 ht with h | h
    · left; simpa using congrArg Prod.fst h
    -- the forced cleanup only drops keys
    · right; exact held_iff.2 ⟨t, (mem_forcedCleanup.1 h).1⟩
  · right; exact held_iff.2 ⟨t, ht⟩

theorem held_rollback : (m.rollbackIdempotency key).held key' = (m.held key' && !decide (key' = key)) := by
  by_cases hk : key' = key
  · subst hk
    simp [held, rollback_shard]
  · rw [Bool.eq_iff_iff, held_iff]
    simp only [rollback_shard, hk, decide_false, Bool.not_false, Bool.and_true, held_iff]
    split
    · simp [hk]
    · rfl

theorem held_of_rollback_acquire
    (h : ((m.acquire now key).rollbackIdempotency key).held key' = true) :
    key' ≠ key ∧ m.held key' = true := by
  rw [held_rollback, Bool.and_eq_true] at h
  have hne : key' ≠ key := by simpa using h.2
  rcases held_of_acquire h.1 with heq | hheld
  · exact absurd heq hne
  · exact ⟨hne, hheld⟩

theorem held_of_failed
    (hkeys : m'.idempotencyShards = ((m.acquire now key).rollbackIdempotency key).idempotencyShards)
    (h : m'.held key' = true) : m.held key' = true := by
  rw [held_congr hkeys] at h
  exact (held_of_rollback_acquire h).2

theorem held_of_applied (hkeys : m'.idempotencyShards = (m.acquire now key).idempotencyShards)
    (h : m'.held key' = true) : key' = key ∨ m.held key' = true := by
  rw [held_congr hkeys] at h
  exact held_of_acquire h

theorem setPosition_self {k : PositionKey} {ps : PositionState} (h : m.positions k = some ps) :
    update m.positions k (some ps) = m.positions := by
  rw [← h, update_eq_self]

/-- After a position was written, each position is that one or an old one. -/
theorem position_update {k k' : PositionKey} {ps ps' : PositionState}
    (hm : m'.positions = update m.positions k (some ps)) (h : m'.positions k' = some ps') :
    k' = k ∧ ps' = ps ∨ k' ≠ k ∧ m.positions k' = some ps' := by
  rw [hm] at h
  by_cases hk : k' = k
  · rw [hk, update_self] at h
    cases h
    exact .inl ⟨hk, rfl⟩
  · rw [update_of_ne hk] at h
    exact .inr ⟨hk, h⟩

end Manager

/-! ## Dirty positions -/

variable (m : Manager)

theorem subset_markDirty (k : PositionKey) : m.dirtySet ⊆ (m.markDirty k).dirtySet := by
  unfold Manager.markDirty
  intro k' hk'
  split
  · exact hk'
  · exact mem_append_left _ hk'

theorem mem_markDirty (k : PositionKey) : k ∈ (m.markDirty k).dirtySet := by
  unfold Manager.markDirty
  split
  · assumption
  · simp

theorem mem_of_markDirty {m : Manager} {k x : PositionKey} (h : x ∈ (m.markDirty k).dirtySet) :
    x ∈ m.dirtySet ∨ x = k := by
  unfold Manager.markDirty at h
  split at h
  · exact .inl h
  · simpa using h

/-! ## Effects and the log -/

variable (f : Effect)

@[simp] theorem Effect.apply_balance (a : ℤ) (ps : PositionState) :
    (f.apply a ps).balanceMicro = ps.balanceMicro + f.balance * a := rfl

@[simp] theorem Effect.apply_locked (a : ℤ) (ps : PositionState) :
    (f.apply a ps).lockedMicro = ps.lockedMicro + f.locked * a := rfl

@[simp] theorem Effect.apply_reserved (a : ℤ) (ps : PositionState) :
    (f.apply a ps).reservedMicro = ps.reservedMicro + f.reserved * a := rfl

@[simp] theorem Effect.apply_neg (a : ℤ) (ps : PositionState) : f.apply (-a) (f.apply a ps) = ps := by
  cases ps
  simp [Effect.apply]

theorem toMicro_nonneg {amount : Decimal} {a : ℤ} (h : toMicro amount = some a) (hpos : 0 < amount) :
    0 ≤ a := by
  unfold toMicro at h
  split at h
  · cases h
    apply intPart_nonneg
    have : (0 : Decimal) ≤ (microScale : Decimal) := by norm_num [microScale]
    exact mul_nonneg hpos.le this
  · cases h

theorem microInRange_of_toMicro {d : Decimal} {a : ℤ} (h : toMicro d = some a) : microInRange d = true := by
  unfold toMicro at h
  split at h
  · assumption
  · cases h

/-- The operation log accepted the entry, or was not asked because of a replay. -/
def LogOK (w : World) (e : CallEnv) : Prop := w.mgr.replaying = true ∨ e.wal = .ok ∧ e.queued = true

instance (w : World) (e : CallEnv) : Decidable (LogOK w e) := inferInstanceAs (Decidable (_ ∨ _ ∧ _))

def World.logged (w : World) (e : CallEnv) (row : OpRow) : DB :=
  if w.mgr.replaying = false ∧ e.wal.kept = true then w.db.insertReserveOp row else w.db

theorem logged_positions {w : World} {e : CallEnv} (row : OpRow) : (w.logged e row).positions = w.db.positions := by
  unfold World.logged
  split <;> rfl

def DB.flushed (db : DB) (e : CallEnv) (ps : PositionState) : DB :=
  if e.flush.kept = true then
    db.updatePosition ps.id (fromMicro ps.balanceMicro) (fromMicro ps.lockedMicro)
  else db

theorem logOp_ok {w : World} {e : CallEnv} (k : PositionKey) (amount : Decimal) (ref : UUID)
    (op : ReserveOpType) (h : LogOK w e) :
    w.logOp e k amount ref op = ({ w with db := w.logged e ⟨k, amount, ref, op, e.now⟩ }, none) := by
  unfold World.logOp World.logged
  rcases h with h | ⟨hw, hq⟩
  · simp [h]
  · by_cases hr : w.mgr.replaying = true
    · simp [hr]
    · simp [hr, hw, hq, StoreResult.kept]

theorem logOp_err {w : World} {e : CallEnv} (k : PositionKey) (amount : Decimal) (ref : UUID)
    (op : ReserveOpType) (h : ¬ LogOK w e) :
    ∃ err, w.logOp e k amount ref op = ({ w with db := w.logged e ⟨k, amount, ref, op, e.now⟩ }, some err) := by
  simp only [LogOK, not_or, not_and, Bool.not_eq_true] at h
  obtain ⟨hr, hq⟩ := h
  unfold World.logOp World.logged
  simp only [hr, Bool.false_eq_true, if_false, true_and]
  by_cases hw : e.wal = .ok
  · exact ⟨.channelFull op ref, by simp [hw, hq hw, StoreResult.kept]⟩
  · refine ⟨.walWriteFailed op ref, ?_⟩
    rw [if_pos hw]
    split <;> rfl

theorem syncFlush_eq (w : World) (e : CallEnv) (k : PositionKey) (ps : PositionState) :
    w.syncFlushPosition e k ps =
      (⟨{ w.mgr with dirtySet := if e.flush = .ok then w.mgr.dirtySet.filter (· ≠ k) else w.mgr.dirtySet },
        w.db.flushed e ps⟩, decide (e.flush = .ok)) := by
  unfold World.syncFlushPosition DB.flushed
  cases e.flush <;> simp [StoreResult.kept]

/-! ## The outcomes of a call -/

structure SameConfig (m m' : Manager) : Prop where
  syncThresholds : m'.syncThresholds = m.syncThresholds
  syncThresholdDefault : m'.syncThresholdDefault = m.syncThresholdDefault
  replaying : m'.replaying = m.replaying
  failures : m'.consecutiveFlushFailures = m.consecutiveFlushFailures
  failedIDs : m'.failedPositionIDs = m.failedPositionIDs

theorem SameConfig.refl : SameConfig m m := ⟨rfl, rfl, rfl, rfl, rfl⟩

theorem SameConfig.trans {m₁ m₂ m₃ : Manager} (h : SameConfig m₁ m₂) (h' : SameConfig m₂ m₃) :
    SameConfig m₁ m₃ :=
  ⟨h'.1.trans h.1, h'.2.trans h.2, h'.3.trans h.3, h'.4.trans h.4, h'.5.trans h.5⟩

/-- How an applied operation reaches the database: left to the next flush, or flushed at once,
possibly with an error that is only logged. -/
inductive Persist (o : OpSpec) (w : World) (e : CallEnv) (k : PositionKey) (amount : Decimal)
    (db : DB) (ps : PositionState) : DB → List PositionKey → Prop
  | deferred : Persist o w e k amount db ps db (w.mgr.markDirty k).dirtySet
  | flushed : w.mgr.isLarge k.currency amount = true → e.flush = .ok →
      Persist o w e k amount db ps (db.flushed e ps) ((w.mgr.markDirty k).dirtySet.filter (· ≠ k))
  | unflushed : w.mgr.isLarge k.currency amount = true → e.flush ≠ .ok → o.sync = .logOnly →
      Persist o w e k amount db ps (db.flushed e ps) (w.mgr.markDirty k).dirtySet

/-- What a failed operation may leave in the database. -/
inductive Residue (o : OpSpec) (w : World) (e : CallEnv) (k : PositionKey) (amount : Decimal)
    (row : OpRow) : DB → List PositionKey → Prop
  /-- the position or the guard said no -/
  | refused : (∀ ps a, w.mgr.positions k = some ps → toMicro amount = some a →
      o.guard k ps a row.reference ≠ none) → Residue o w e k amount row w.db w.mgr.dirtySet
  /-- the log did not take the operation -/
  | unlogged : ¬ LogOK w e → Residue o w e k amount row (w.logged e row) (w.mgr.markDirty k).dirtySet
  /-- the log took it, the flush of a large amount failed -/
  | unflushed {ps : PositionState} {a : ℤ} : LogOK w e → o.sync = .rollback →
      w.mgr.isLarge k.currency amount = true → e.flush ≠ .ok →
      w.mgr.positions k = some ps → toMicro amount = some a →
      Residue o w e k amount row ((w.logged e row).flushed e (o.effect.apply a ps)) (w.mgr.markDirty k).dirtySet

inductive Outcome (o : OpSpec) (w : World) (e : CallEnv) (k : PositionKey) (amount : Decimal)
    (ref : UUID) : World → Result → Prop
  /-- an argument check or the circuit breaker -/
  | rejected {err : Err} (why : ¬ 0 < amount ∨ o.checksRange = true ∧ microInRange amount = false ∨
      o.breaker ≠ none ∧ Manager.maxFlushFailuresBeforeReject ≤ w.mgr.consecutiveFlushFailures) :
      Outcome o w e k amount ref w (.err err)
  /-- the key is already claimed -/
  | duplicate : w.mgr.held ⟨ref, o.op⟩ = true → Outcome o w e k amount ref w .nil
  /-- `toMicro` panics and the key stays claimed -/
  | panicked : w.mgr.held ⟨ref, o.op⟩ = false → o.checksRange = false → microInRange amount = false →
      Outcome o w e k amount ref { w with mgr := w.mgr.acquire e.now ⟨ref, o.op⟩ } .panic
  /-- an error after the key was claimed: key and counters are given back -/
  | failed {w' : World} {err : Err} (held : w.mgr.held ⟨ref, o.op⟩ = false)
      (positions : w'.mgr.positions = w.mgr.positions)
      (keys : w'.mgr.idempotencyShards =
        ((w.mgr.acquire e.now ⟨ref, o.op⟩).rollbackIdempotency ⟨ref, o.op⟩).idempotencyShards)
      (config : SameConfig w.mgr w'.mgr)
      (residue : Residue o w e k amount ⟨k, amount, ref, o.op, e.now⟩ w'.db w'.mgr.dirtySet) :
      Outcome o w e k amount ref w' (.err err)
  /-- the operation took effect -/
  | applied {w' : World} {ps : PositionState} {a : ℤ} (held : w.mgr.held ⟨ref, o.op⟩ = false)
      (log : LogOK w e) (pos : 0 < amount) (micro : toMicro amount = some a)
      (before : w.mgr.positions k = some ps) (guard : o.guard k ps a ref = none)
      (positions : w'.mgr.positions = update w.mgr.positions k (some (o.effect.apply a ps)))
      (keys : w'.mgr.idempotencyShards = (w.mgr.acquire e.now ⟨ref, o.op⟩).idempotencyShards)
      (config : SameConfig w.mgr w'.mgr)
      (persist : Persist o w e k amount (w.logged e ⟨k, amount, ref, o.op, e.now⟩)
        (o.effect.apply a ps) w'.db w'.mgr.dirtySet) :
      Outcome o w e k amount ref w' .nil

/-! ## The case analysis -/

/-- The manager fields the events and the alert leave alone. -/
structure Silent (m m' : Manager) : Prop where
  positions : m'.positions = m.positions
  dirtySet : m'.dirtySet = m.dirtySet
  keys : m'.idempotencyShards = m.idempotencyShards
  config : SameConfig m m'

theorem Silent.refl : Silent m m := ⟨rfl, rfl, rfl, rfl, rfl, rfl, rfl, rfl⟩

theorem update_silent (o : OpSpec) (m : Manager) (now : Time) (k : PositionKey) (ps : PositionState)
    (amount : Decimal) (ref : UUID) (refType : String) :
    Silent ((m.setPosition k ps).markDirty k) (o.update m now k ps amount ref refType) := by
  unfold OpSpec.update
  dsimp only
  split
  · unfold Manager.queueEvent
    split
    · exact ⟨rfl, rfl, rfl, rfl, rfl, rfl, rfl, rfl⟩
    · exact .refl _
  · exact .refl _

theorem alerted_silent (b : Bool) (m : Manager) (k : PositionKey) (ps : PositionState) :
    Silent m (if b then m.checkMinimum k ps else m) := by
  unfold Manager.checkMinimum
  split
  · split
    · exact ⟨rfl, rfl, rfl, rfl, rfl, rfl, rfl, rfl⟩
    · exact .refl _
  · exact .refl _

theorem SameConfig.isLarge {m m' : Manager} (h : SameConfig m m') (c : Currency) (amount : Decimal) :
    m'.isLarge c amount = m.isLarge c amount := by
  have hfor : m'.syncThresholdFor c = m.syncThresholdFor c := by
    simp only [Manager.syncThresholdFor, h.syncThresholds, h.syncThresholdDefault]
  unfold Manager.isLarge
  rw [hfor]

variable {o : OpSpec} {w w' : World} {e : CallEnv} {k : PositionKey} {amount : Decimal} {ref : UUID}
  {refType : String} {r : Result} {a : ℤ} {ps : PositionState}

theorem sameConfig_acquire (now : Time) (key : IdempotencyKey) :
    SameConfig m (m.acquire now key) := ⟨rfl, rfl, rfl, rfl, rfl⟩

variable (key : IdempotencyKey)

theorem sameConfig_set (k : PositionKey) (ps : PositionState) :
    SameConfig m ((m.setPosition k ps).markDirty k) := ⟨rfl, rfl, rfl, rfl, rfl⟩

theorem sameConfig_dirtySet (d : List PositionKey) :
    SameConfig m { m with dirtySet := d } := ⟨rfl, rfl, rfl, rfl, rfl⟩

theorem Residue.of_acquire {key : IdempotencyKey} {row : OpRow}
    (h : Residue o { w with mgr := w.mgr.acquire e.now key } e k amount row db dirty) :
    Residue o w e k amount row db dirty := by
  cases h with
  | refused hno => exact .refused hno
  | unlogged hl => exact .unlogged hl
  | unflushed hl hroll hlarge hf hps ha => exact .unflushed hl hroll hlarge hf hps ha

theorem Residue.reason {row : OpRow} (h : Residue o w e k amount row db dirty) :
    (∀ ps a, w.mgr.positions k = some ps → toMicro amount = some a → o.guard k ps a row.reference ≠ none) ∨
    ¬ LogOK w e ∨ (o.sync = .rollback ∧ w.mgr.isLarge k.currency amount = true ∧ e.flush ≠ .ok) := by
  cases h with
  | refused hno => exact .inl hno
  | unlogged hno => exact .inr (.inl hno)
  | unflushed _ hroll hlarge hno => exact .inr (.inr ⟨hroll, hlarge, hno⟩)

theorem Persist.of_acquire {key : IdempotencyKey} {db' : DB}
    (h : Persist o { w with mgr := w.mgr.acquire e.now key } e k amount db ps db' dirty) :
    Persist o w e k amount db ps db' dirty := by
  cases h with
  | deferred => exact .deferred
  | flushed hlarge hf => exact .flushed hlarge hf
  | unflushed hlarge hf hmode => exact .unflushed hlarge hf hmode

theorem finish_cases (h : o.finish w e k amount a (o.effect.apply a ps) = (w', r)) :
    (∃ err, r = .err err ∧ w'.mgr.positions = update w.mgr.positions k (some ps) ∧
      w'.mgr.idempotencyShards = w.mgr.idempotencyShards ∧ SameConfig w.mgr w'.mgr ∧
      w'.mgr.dirtySet = w.mgr.dirtySet ∧ w'.db = w.db.flushed e (o.effect.apply a ps) ∧
      o.sync = .rollback ∧ w.mgr.isLarge k.currency amount = true ∧ e.flush ≠ .ok) ∨
    (r = .nil ∧ w'.mgr.positions = w.mgr.positions ∧
      w'.mgr.idempotencyShards = w.mgr.idempotencyShards ∧ SameConfig w.mgr w'.mgr ∧
      (w'.mgr.dirtySet = w.mgr.dirtySet ∧ w'.db = w.db ∨
        w.mgr.isLarge k.currency amount = true ∧ w'.db = w.db.flushed e (o.effect.apply a ps) ∧
          (e.flush = .ok ∧ w'.mgr.dirtySet = w.mgr.dirtySet.filter (· ≠ k) ∨
            e.flush ≠ .ok ∧ o.sync = .logOnly ∧ w'.mgr.dirtySet = w.mgr.dirtySet))) := by
  unfold OpSpec.finish at h
  rw [syncFlush_eq] at h
  simp only at h
  split at h
  · rename_i hsync
    -- a large amount: the answer depends on the flush and on what the operation makes of a failure
    by_cases hf : e.flush = .ok
    · simp only [hf, decide_true, if_true] at h
      cases h
      have hs := alerted_silent o.alert { w.mgr with dirtySet := w.mgr.dirtySet.filter (· ≠ k) } k
        (o.effect.apply a ps)
      refine .inr ⟨rfl, hs.positions, hs.keys, (sameConfig_dirtySet w.mgr _).trans hs.config, .inr ?_⟩
      exact ⟨hsync.2, rfl, .inl ⟨hf, hs.dirtySet⟩⟩
    · simp only [hf, decide_false, if_false] at h
      cases hm : o.sync with
      | none => exact absurd hm hsync.1
      | rollback =>
        simp only [hm, Effect.apply_neg] at h
        cases h
        exact .inl ⟨_, rfl, rfl, rfl, ⟨rfl, rfl, rfl, rfl, rfl⟩, rfl, rfl, rfl, hsync.2, hf⟩
      | logOnly =>
        simp only [hm] at h
        cases h
        exact .inr ⟨rfl, rfl, rfl, ⟨rfl, rfl, rfl, rfl, rfl⟩, .inr ⟨hsync.2, rfl, .inr ⟨hf, rfl, rfl⟩⟩⟩
  · cases h
    have hs := alerted_silent o.alert w.mgr k (o.effect.apply a ps)
    exact .inr ⟨rfl, hs.positions, hs.keys, hs.config, .inl ⟨hs.dirtySet, rfl⟩⟩

/-- The position is there and its counters allow the operation. -/
def Allowed (o : OpSpec) (w : World) (k : PositionKey) (amount : Decimal) (ref : UUID) : Prop :=
  ∃ ps a, w.mgr.positions k = some ps ∧ toMicro amount = some a ∧ o.guard k ps a ref = none

theorem opBody_refused (h : ¬ Allowed o w k amount ref) : ∃ r, opBody o w e k amount ref refType = (w, r) ∧
    (r = .panic ∧ microInRange amount = false ∨ ∃ err, r = .err err) := by
  unfold opBody
  split
  · exact ⟨_, rfl, .inr ⟨_, rfl⟩⟩
  rename_i ps hps
  split
  · rename_i ha
    exact ⟨_, rfl, .inl ⟨rfl, by simpa [toMicro] using ha⟩⟩
  rename_i a ha
  split
  · exact ⟨_, rfl, .inr ⟨_, rfl⟩⟩
  rename_i hg
  exact absurd ⟨ps, a, hps, ha, hg⟩ h

theorem opBody_allowed (hps : w.mgr.positions k = some ps) (ha : toMicro amount = some a)
    (hg : o.guard k ps a ref = none) : ∃ m err, Silent ((w.mgr.setPosition k (o.effect.apply a ps)).markDirty k) m ∧
      m = o.update w.mgr e.now k (o.effect.apply a ps) amount ref refType ∧ opBody o w e k amount ref refType =
        if LogOK w e then o.finish ⟨m, w.logged e ⟨k, amount, ref, o.op, e.now⟩⟩ e k amount a (o.effect.apply a ps)
        else (⟨m.setPosition k ps, w.logged e ⟨k, amount, ref, o.op, e.now⟩⟩, .err err) := by
  have hs := update_silent o w.mgr e.now k (o.effect.apply a ps) amount ref refType
  unfold opBody
  simp only [hps, ha, hg]
  generalize o.update w.mgr e.now k (o.effect.apply a ps) amount ref refType = m at hs
  have hreplaying : m.replaying = w.mgr.replaying := hs.config.replaying
  have hlogOK : LogOK ⟨m, w.db⟩ e ↔ LogOK w e := by simp only [LogOK, hreplaying]
  have hrow : (World.mk m w.db).logged e ⟨k, amount, ref, o.op, e.now⟩ =
      w.logged e ⟨k, amount, ref, o.op, e.now⟩ := by
    simp only [World.logged, hreplaying]
  by_cases hlog : LogOK w e
  · refine ⟨m, .channelFull o.op ref, hs, rfl, ?_⟩
    rw [logOp_ok k amount ref o.op (hlogOK.2 hlog), hrow, if_pos hlog]
  · obtain ⟨err, herr⟩ := logOp_err k amount ref o.op (mt hlogOK.1 hlog)
    refine ⟨m, err, hs, rfl, ?_⟩
    rw [herr, hrow, if_neg hlog]
    simp only [Effect.apply_neg]

theorem opBody_cases (h : opBody o w e k amount ref refType = (w', r)) :
    (r = .panic ∧ w' = w ∧ microInRange amount = false) ∨
    (∃ err, r = .err err ∧ w'.mgr.positions = w.mgr.positions ∧
      w'.mgr.idempotencyShards = w.mgr.idempotencyShards ∧ SameConfig w.mgr w'.mgr ∧
      Residue o w e k amount ⟨k, amount, ref, o.op, e.now⟩ w'.db w'.mgr.dirtySet) ∨
    (∃ ps a, r = .nil ∧ LogOK w e ∧ toMicro amount = some a ∧ w.mgr.positions k = some ps ∧
      o.guard k ps a ref = none ∧
      w'.mgr.positions = update w.mgr.positions k (some (o.effect.apply a ps)) ∧
      w'.mgr.idempotencyShards = w.mgr.idempotencyShards ∧ SameConfig w.mgr w'.mgr ∧
      Persist o w e k amount (w.logged e ⟨k, amount, ref, o.op, e.now⟩)
        (o.effect.apply a ps) w'.db w'.mgr.dirtySet) := by
  by_cases hal : Allowed o w k amount ref
  case neg =>
    obtain ⟨r₁, heq, hr⟩ := opBody_refused hal
    cases heq.symm.trans h
    refine hr.imp (fun hr => ⟨hr.1, rfl, hr.2⟩) fun ⟨err, hr⟩ => .inl ⟨err, hr, rfl, rfl, .refl _, ?_⟩
    exact .refused fun ps a hps ha hg => hal ⟨ps, a, hps, ha, hg⟩
  obtain ⟨ps, a, hps, ha, hg⟩ := hal
  obtain ⟨m₁, err, hs, -, heq⟩ := opBody_allowed hps ha hg
  rw [heq] at h
  have hpos₁ : m₁.positions = update w.mgr.positions k (some (o.effect.apply a ps)) := hs.positions
  have hkeys₁ : m₁.idempotencyShards = w.mgr.idempotencyShards := hs.keys
  have hdirty₁ : m₁.dirtySet = (w.mgr.markDirty k).dirtySet := hs.dirtySet
  have hcfg₁ : SameConfig w.mgr m₁ := (sameConfig_set w.mgr _ _).trans hs.config
  -- what every rollback below comes back to
  have hback : update m₁.positions k (some ps) = w.mgr.positions := by
    rw [hpos₁, update_idem, Manager.setPosition_self hps]
  split at h
  -- logged: the rest is `finish`
  · rename_i hlog
    rcases finish_cases h with ⟨err, hr, hpos, hkeys, hcfg, hdirty, hdb, hroll, hlarge, hf⟩ |
      ⟨hr, hpos, hkeys, hcfg, hdb⟩
    · refine .inr (.inl ⟨err, hr, hpos.trans hback, hkeys.trans hkeys₁, hcfg₁.trans hcfg, ?_⟩)
      rw [hdirty, hdb, hdirty₁]
      exact .unflushed hlog hroll (hcfg₁.isLarge .. ▸ hlarge) hf hps ha
    · refine .inr (.inr ⟨ps, a, hr, hlog, ha, hps, hg, hpos.trans hpos₁, hkeys.trans hkeys₁,
        hcfg₁.trans hcfg, ?_⟩)
      rcases hdb with ⟨hdirty, hdb⟩ | ⟨hlarge, hdb, ⟨hf, hdirty⟩ | ⟨hf, hmode, hdirty⟩⟩
      · rw [hdirty, hdb, hdirty₁]
        exact .deferred
      · rw [hdirty, hdb, hdirty₁]
        exact .flushed (hcfg₁.isLarge .. ▸ hlarge) hf
      · rw [hdirty, hdb, hdirty₁]
        exact .unflushed (hcfg₁.isLarge .. ▸ hlarge) hf hmode
  -- not logged, though the row may have been kept
  · rename_i hlog
    cases h
    refine .inr (.inl ⟨err, rfl, hback, hkeys₁, hcfg₁.trans ⟨rfl, rfl, rfl, rfl, rfl⟩, ?_⟩)
    show Residue o w e k amount _ _ m₁.dirtySet
    rw [hdirty₁]
    exact .unlogged hlog

/-- The call passes the checks before the idempotency key. -/
def Admits (o : OpSpec) (w : World) (amount : Decimal) : Prop :=
  0 < amount ∧ (o.checksRange = true → microInRange amount = true) ∧
    (o.breaker = none ∨ w.mgr.consecutiveFlushFailures < Manager.maxFlushFailuresBeforeReject)

instance (o : OpSpec) (w : World) (amount : Decimal) : Decidable (Admits o w amount) :=
  inferInstanceAs (Decidable (_ ∧ _ ∧ _))

theorem admits_of (hpos : ¬ ¬ 0 < amount) (hrange : ¬ (o.checksRange = true ∧ ¬ microInRange amount = true))
    (hbreak : ∀ mk, o.breaker = some mk →
      decide (Manager.maxFlushFailuresBeforeReject ≤ w.mgr.consecutiveFlushFailures) = true → False) :
    Admits o w amount := by
  refine ⟨not_not.1 hpos, fun hc => not_not.1 fun hno => hrange ⟨hc, hno⟩, ?_⟩
  cases hmk : o.breaker with
  | none => exact .inl rfl
  | some mk => exact .inr (not_le.1 fun hle => hbreak mk hmk (decide_eq_true hle))

def giveBack : World × Result → World × Result
  | (w, .err err) => ({ w with mgr := w.mgr.rollbackIdempotency key }, .err err)
  | r => r

@[simp] theorem giveBack_snd (x : World × Result) : (giveBack key x).2 = x.2 := by
  obtain ⟨w, r⟩ := x
  cases r <;> rfl

theorem runOp_cases (o : OpSpec) (w : World) (e : CallEnv) (k : PositionKey) (amount : Decimal) (ref : UUID)
    (refType : String) :
    (¬ Admits o w amount ∧ ∃ err, runOp o w e k amount ref refType = (w, .err err)) ∨
    (Admits o w amount ∧ w.mgr.held ⟨ref, o.op⟩ = true ∧ runOp o w e k amount ref refType = (w, .nil)) ∨
    (Admits o w amount ∧ w.mgr.held ⟨ref, o.op⟩ = false ∧ runOp o w e k amount ref refType =
      giveBack ⟨ref, o.op⟩ (opBody o { w with mgr := w.mgr.acquire e.now ⟨ref, o.op⟩ } e k amount ref refType)) := by
  unfold runOp
  unfold checked
  split
  · rename_i hpos
    exact .inl ⟨fun hadm => hpos hadm.1, _, rfl⟩
  rename_i hpos
  split
  · rename_i hrange
    exact .inl ⟨fun hadm => hrange.2 (hadm.2.1 hrange.1), _, rfl⟩
  rename_i hrange
  split
  · rename_i mk hmk hbreak
    refine .inl ⟨fun hadm => ?_, _, rfl⟩
    rcases hadm.2.2 with hnone | hlt
    · rw [hmk] at hnone
      cases hnone
    · exact absurd (of_decide_eq_true hbreak) (not_le.2 hlt)
  rename_i hbreak
  have hadm : Admits o w amount := admits_of hpos hrange hbreak
  dsimp only
  split
  · rename_i hheld
    exact .inr (.inl ⟨hadm, hheld, rfl⟩)
  · rename_i hheld
    exact .inr (.inr ⟨hadm, Bool.eq_false_iff.2 hheld, rfl⟩)

theorem checked_congr {body body' : World → World × Result} {now : Time}
    (h : Admits o w amount → w.mgr.held ⟨ref, o.op⟩ = false →
      body { w with mgr := w.mgr.acquire now ⟨ref, o.op⟩ } = body' { w with mgr := w.mgr.acquire now ⟨ref, o.op⟩ }) :
    checked o w now amount ref body = checked o w now amount ref body' := by
  unfold checked
  split
  · rfl
  rename_i hpos
  split
  · rfl
  rename_i hrange
  split
  · rfl
  rename_i hbreak
  dsimp only
  split
  · rfl
  rename_i hheld
  rw [h (admits_of hpos hrange hbreak) (Bool.eq_false_iff.2 hheld)]

theorem not_admits (h : ¬ Admits o w amount) : ¬ 0 < amount ∨ o.checksRange = true ∧ microInRange amount = false ∨
    o.breaker ≠ none ∧ Manager.maxFlushFailuresBeforeReject ≤ w.mgr.consecutiveFlushFailures := by
  by_contra hno
  simp only [not_or, not_and, not_not, Bool.not_eq_false, not_le] at hno
  obtain ⟨hpos, hrange, hbreak⟩ := hno
  exact h ⟨hpos, hrange, or_iff_not_imp_left.2 hbreak⟩

/-- **Everything a call can do.** -/
theorem runOp_outcome (h : runOp o w e k amount ref refType = (w', r)) : Outcome o w e k amount ref w' r := by
  rcases runOp_cases o w e k amount ref refType with ⟨hno, err, heq⟩ | ⟨-, hheld, heq⟩ | ⟨hadm, hheld, heq⟩
  · cases heq.symm.trans h
    exact .rejected (not_admits hno)
  · cases heq.symm.trans h
    exact .duplicate hheld
  rw [heq] at h
  rcases hb : opBody o { w with mgr := w.mgr.acquire e.now ⟨ref, o.op⟩ } e k amount ref refType with ⟨w₁, r₁⟩
  rw [hb] at h
  -- the three ways `opBody` ends are the last three outcomes
  rcases opBody_cases hb with ⟨rfl, rfl, hmicro⟩ | ⟨err, rfl, hpos', hkeys, hcfg, hres⟩ |
    ⟨ps, a, rfl, hlog, ha, hps, hg, hpos', hkeys, hcfg, hper⟩
  · cases h
    refine .panicked hheld (Bool.eq_false_iff.2 fun hc => ?_) hmicro
    rw [hadm.2.1 hc] at hmicro
    cases hmicro
  · cases h
    refine .failed hheld hpos' ?_ ?_ ?_
    · simp only [Manager.rollbackIdempotency, hkeys]
    · exact (sameConfig_acquire w.mgr _ _).trans (hcfg.trans ⟨rfl, rfl, rfl, rfl, rfl⟩)
    · exact hres.of_acquire
  · cases h
    refine .applied hheld hlog hadm.1 ha hps hg hpos' hkeys ?_ ?_
    · exact (sameConfig_acquire w.mgr _ _).trans hcfg
    · exact hper.of_acquire

theorem runOp_positions (o : OpSpec) (w : World) (e : CallEnv) (k : PositionKey) (amount : Decimal) (ref : UUID)
    (refType : String) :
    (runOp o w e k amount ref refType).1.mgr.positions = w.mgr.positions ∨
    (Admits o w amount ∧ w.mgr.held ⟨ref, o.op⟩ = false ∧
      ∃ ps a, w.mgr.positions k = some ps ∧ toMicro amount = some a ∧ o.guard k ps a ref = none ∧
        (runOp o w e k amount ref refType).1.mgr.positions =
          update w.mgr.positions k (some (o.effect.apply a ps))) := by
  rcases runOp_cases o w e k amount ref refType with ⟨-, err, heq⟩ | ⟨-, -, heq⟩ | ⟨hadm, hheld, heq⟩
  · exact .inl (by rw [heq])
  · exact .inl (by rw [heq])
  rw [heq]
  rcases hb : opBody o { w with mgr := w.mgr.acquire e.now ⟨ref, o.op⟩ } e k amount ref refType with ⟨w₁, r₁⟩
  rcases opBody_cases hb with ⟨rfl, rfl, -⟩ | ⟨err, rfl, hpos, -⟩ | ⟨ps, a, rfl, -, ha, hps, hg, hpos, -⟩
  · exact .inl rfl
  · exact .inl hpos
  · exact .inr ⟨hadm, hheld, ps, a, hps, ha, hg, hpos⟩

theorem runOp_shards (hadm : Admits o w amount) (hfree : w.mgr.held ⟨ref, o.op⟩ = false) :
    (runOp o w e k amount ref refType).1.mgr.idempotencyShards =
        (w.mgr.acquire e.now ⟨ref, o.op⟩).idempotencyShards ∨
      (runOp o w e k amount ref refType).1.mgr.idempotencyShards =
        ((w.mgr.acquire e.now ⟨ref, o.op⟩).rollbackIdempotency ⟨ref, o.op⟩).idempotencyShards := by
  rcases runOp_cases o w e k amount ref refType with ⟨hno, -⟩ | ⟨-, hheld, -⟩ | ⟨-, -, heq⟩
  · exact absurd hadm hno
  · rw [hheld] at hfree
    cases hfree
  rw [heq]
  rcases hb : opBody o { w with mgr := w.mgr.acquire e.now ⟨ref, o.op⟩ } e k amount ref refType with ⟨w₁, r₁⟩
  rcases opBody_cases hb with ⟨rfl, rfl, -⟩ | ⟨err, rfl, -, hkeys, -⟩ | ⟨_, _, rfl, -, -, -, -, -, hkeys, -⟩
  · exact .inl rfl
  · refine .inr ?_
    simp only [giveBack, Manager.rollbackIdempotency, hkeys]
  · exact .inl hkeys

theorem Outcome.nil (h : Outcome o w e k amount ref w' r) (hpos : 0 < amount) (hin : microInRange amount = true)
    (hbreak : o.breaker = none ∨ w.mgr.consecutiveFlushFailures < Manager.maxFlushFailuresBeforeReject)
    (hps : w.mgr.positions k = some ps) (ha : toMicro amount = some a)
    (hg : o.guard k ps a ref = none) (hlog : LogOK w e)
    (hflush : o.sync = .rollback → w.mgr.isLarge k.currency amount = true → e.flush = .ok) : r = .nil := by
  cases h with
  | rejected why =>
    rcases why with hneg | ⟨-, hout⟩ | ⟨hsome, hfail⟩
    · exact absurd hpos hneg
    · simp [hin] at hout
    · rcases hbreak with hnone | hlt
      · exact absurd hnone hsome
      · omega
  | duplicate => rfl
  -- the amount is in range, so `toMicro` returns
  | panicked _ _ hout => simp [hin] at hout
  | failed _ _ _ _ hres =>
    rcases hres.reason with hno | hno | ⟨hroll, hlarge, hno⟩
    · exact absurd hg (hno ps a hps ha)
    · exact absurd hlog hno
    · exact absurd (hflush hroll hlarge) hno
  | applied => rfl

/-! ## Calls -/

@[simp] theorem specOf_op (op : ReserveOpType) : (specOf op).op = op := by cases op <;> rfl

theorem specOf_effect (op : ReserveOpType) : (specOf op).effect = match op with
    | .reserve => ⟨0, 0, 1⟩
    | .release => ⟨0, 0, -1⟩
    | .commit => ⟨0, 1, -1⟩
    | .consume => ⟨-1, 0, -1⟩
    | .credit => ⟨1, 0, 0⟩
    | .debit => ⟨-1, 0, 0⟩ := by
  cases op <;> rfl

/-- The amounts an operation accepts on a position. -/
def PositionState.Allows (ps : PositionState) (a : ℤ) : ReserveOpType → Prop
  | .reserve => a ≤ ps.available
  | .release => a ≤ ps.reservedMicro
  | .commit => a ≤ ps.reservedMicro
  | .consume => a ≤ ps.reservedMicro ∧ a ≤ ps.balanceMicro
  | .credit => True
  | .debit => a ≤ ps.available

theorem guard_eq_none : (specOf op).guard k ps a ref = none ↔ ps.Allows a op := by
  cases op <;>
    simp [specOf, reserveSpec, releaseSpec, commitSpec, consumeSpec, creditSpec, debitSpec, needAvailable,
      PositionState.Allows]
  split
  · simp; omega
  · simp; omega

theorem exec_eq_runOp (w : World) (e : CallEnv) (kind : ReserveOpType) (k : PositionKey) (amount : Decimal) (ref : UUID)
    (refType : String) :
    w.exec e (.op kind k amount ref refType) = runOp (specOf kind) w e k amount ref (kind.refType refType) := by
  cases kind <;> rfl

theorem exec_op (h : w.exec e (.op op k amount ref refType) = (w', r)) :
    Outcome (specOf op) w e k amount ref w' r := by
  cases op <;> exact runOp_outcome h

theorem Outcome.panic (h : Outcome o w e k amount ref w' .panic) :
    o.checksRange = false ∧ microInRange amount = false := by
  cases h with
  | panicked _ hno hout => exact ⟨hno, hout⟩

/-- A call that returns does nothing to the counters and keys, or the operation under a free key. -/
theorem outcome_effect (h : Outcome (specOf op) w e k amount ref w' r) (hr : r ≠ .panic) :
    (w'.mgr.positions = w.mgr.positions ∧
      (r = .nil → w.mgr.held ⟨ref, op⟩ = true ∧ w'.mgr.held ⟨ref, op⟩ = true) ∧
      ∀ key, w'.mgr.held key = true → w.mgr.held key = true) ∨
    (r = .nil ∧ w.mgr.held ⟨ref, op⟩ = false ∧ w'.mgr.held ⟨ref, op⟩ = true ∧
      (∀ key, w'.mgr.held key = true → key = ⟨ref, op⟩ ∨ w.mgr.held key = true) ∧
      ∃ ps a, toMicro amount = some a ∧ 0 ≤ a ∧ w.mgr.positions k = some ps ∧
        (specOf op).guard k ps a ref = none ∧
        w'.mgr.positions = update w.mgr.positions k (some ((specOf op).effect.apply a ps))) := by
  cases h with
  | rejected why => exact .inl ⟨rfl, nofun, fun _ hk => hk⟩
  | duplicate hheld =>
    rw [specOf_op] at hheld
    exact .inl ⟨rfl, fun _ => ⟨hheld, hheld⟩, fun _ hk => hk⟩
  | panicked => exact absurd rfl hr
  | failed hheld hpos hkeys _ _ =>
    -- counters and key are given back; a cleanup may have dropped other keys
    exact .inl ⟨hpos, nofun, fun _ hk => Manager.held_of_failed hkeys hk⟩
  | @applied _ ps a hheld _ hamt hmicro hbefore hguard hpos hkeys _ _ =>
    rw [specOf_op] at hheld hkeys
    have hnew : w'.mgr.held ⟨ref, op⟩ = true := by rw [Manager.held_congr hkeys, Manager.held_acquire_self]
    exact .inr ⟨rfl, hheld, hnew, fun _ hk => Manager.held_of_applied hkeys hk, ps, a, hmicro,
      toMicro_nonneg hmicro hamt, hbefore, hguard, hpos⟩

theorem updateBalance_cases {v : Decimal} (h : w.updateBalance k v = (w', r)) :
    (w' = w ∧ ∃ err, r = .err err) ∨
    ∃ ps b, r = .nil ∧ toMicro v = some b ∧ w.mgr.positions k = some ps ∧
      ps.lockedMicro + ps.reservedMicro ≤ b ∧
      w' = { w with mgr := (w.mgr.setPosition k { ps with balanceMicro := b }).markDirty k } := by
  unfold World.updateBalance at h
  split at h
  · cases h; exact .inl ⟨rfl, _, rfl⟩
  rename_i b hb
  split at h
  · cases h; exact .inl ⟨rfl, _, rfl⟩
  rename_i ps hps
  split at h
  · cases h; exact .inl ⟨rfl, _, rfl⟩
  · rename_i hlt
    cases h
    exact .inr ⟨ps, b, rfl, hb, hps, not_lt.1 hlt, rfl⟩

/-! ## A manager with one position -/

/-- A manager with one position and the default options, over empty tables. -/
def single (k : PositionKey) (ps : PositionState) : World :=
  ⟨{ newManager with positions := fun k' => if k' = k then some ps else none }, ⟨[], []⟩⟩

def usdPosition : PositionKey := ⟨1, "USD", "bank:usd"⟩

end Settla.Treasury
