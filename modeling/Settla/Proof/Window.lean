import Mathlib.Combinatorics.Pigeonhole
import Settla.Proof.Storage

/-!
# How long an idempotency key is kept

The periodic cleanup keeps a key for ten minutes. But a shard that has reached its share of the size limit
drops every key older than two minutes.
-/

namespace Settla.Treasury

open Lib List

/-! ## A claimed key -/

def Manager.shardOf (m : Manager) (key : IdempotencyKey) : List (IdempotencyKey × Time) :=
  m.idempotencyShards (idempotencyShardFor key)

def Manager.Claimed (m : Manager) (key : IdempotencyKey) (t : Time) : Prop := ∀ t', (key, t') ∈ m.shardOf key ↔ t' = t

variable {mid : List Activity} {m : Manager} {t' : Time}

theorem Manager.Claimed.held {key : IdempotencyKey} {t : Time} (h : m.Claimed key t) : m.held key = true :=
  Manager.held_iff.2 ⟨t, (h t).2 rfl⟩

theorem held_eq_false_iff {key : IdempotencyKey} : m.held key = false ↔ ∀ t, (key, t) ∉ m.shardOf key := by
  rw [← Bool.not_eq_true, Manager.held_iff, not_exists]
  rfl

def Activity.time : Activity → Option Time
  | .call e _ => some e.now
  | .flush _ => none
  | .cleanup now => some now

def Activity.key : Activity → Option IdempotencyKey
  | .call _ c => c.key
  | _ => none

/-- A key claimed at `t` is not dropped: where an activity forces a cleanup of its shard, it is
at most two minutes old. -/
def Keeps (key : IdempotencyKey) (t : Time) (w : World) : Activity → Prop
  | .call e (.op kind _ amount ref _) =>
    Admits (specOf kind) w amount → w.mgr.held ⟨ref, kind⟩ = false →
      idempotencyShardFor ⟨ref, kind⟩ = idempotencyShardFor key →
      Manager.maxIdempotencyMapSize / 16 ≤ (w.mgr.shardOf key).length → e.now ≤ t + Manager.forcedCleanupMaxAge
  | .cleanup now =>
    Manager.maxIdempotencyMapSize / 16 <
      ((w.mgr.shardOf key).filter fun it => !decide (it.2 < now - idempotencyMaxAge)).length →
      now ≤ t + Manager.forcedCleanupMaxAge
  | _ => True

variable {w : World} {key : IdempotencyKey} {t : Time}

theorem shardOf_congr {m' : Manager} (h : m'.idempotencyShards = m.idempotencyShards) :
    m'.shardOf key = m.shardOf key := by
  unfold Manager.shardOf
  rw [h]

theorem mem_shard_runOp {o : OpSpec} {e : CallEnv} {k : PositionKey} {amount : Decimal} {ref : UUID} {refType : String}
    (hadm : Admits o w amount) (hfree : w.mgr.held ⟨ref, o.op⟩ = false) (hne : key ≠ ⟨ref, o.op⟩) (t' : Time) :
    (key, t') ∈ (runOp o w e k amount ref refType).1.mgr.shardOf key ↔
      (key, t') ∈ w.mgr.shardOf key ∧ (idempotencyShardFor ⟨ref, o.op⟩ = idempotencyShardFor key →
        Manager.maxIdempotencyMapSize / 16 ≤ (w.mgr.shardOf key).length → e.now ≤ t' + Manager.forcedCleanupMaxAge) := by
  have hrun : (key, t') ∈ (runOp o w e k amount ref refType).1.mgr.shardOf key ↔
      (key, t') ∈ (w.mgr.acquire e.now ⟨ref, o.op⟩).shardOf key := by
    rcases runOp_shards (e := e) (k := k) hadm hfree with h | h
    · rw [shardOf_congr h]
    -- giving a key back takes no other one
    · rw [shardOf_congr h, Manager.shardOf, Manager.shardOf, Manager.rollback_shard]
      split
      · simp [hne]
      · rfl
  rw [hrun]
  unfold Manager.shardOf
  rw [Manager.acquire_shard]
  split
  · rename_i hs
    simp only [mem_cons, Prod.mk.injEq, hne, false_and, false_or, Manager.mem_forcedCleanup, hs.symm, forall_const]
  · rename_i hs
    simp only [Ne.symm hs, false_imp_iff, and_true]

theorem updateBalance_shards (w : World) (k : PositionKey) (v : Decimal) :
    (w.updateBalance k v).1.mgr.idempotencyShards = w.mgr.idempotencyShards := by
  rcases hu : w.updateBalance k v with ⟨w', r⟩
  rcases updateBalance_cases hu with ⟨rfl, -⟩ | ⟨_, _, -, -, -, -, rfl⟩
  · rfl
  · rfl

theorem mem_shard_call {e : CallEnv} {c : Call} (hkey : c.key = some key → w.mgr.held key = true) (t' : Time) :
    (key, t') ∈ (w.exec e c).1.mgr.shardOf key ↔ (key, t') ∈ w.mgr.shardOf key ∧ Keeps key t' w (.call e c) := by
  cases c with
  | op kind k amount ref refType =>
    rw [exec_eq_runOp]
    simp only [Keeps]
    rcases runOp_cases (specOf kind) w e k amount ref (kind.refType refType) with
      ⟨hno, err, heq⟩ | ⟨-, hheld, heq⟩ | ⟨hadm, hfree, -⟩
    · rw [heq]
      simp only [hno, false_imp_iff, and_true]
    · rw [specOf_op] at hheld
      rw [heq]
      simp only [hheld, Bool.true_eq_false, false_imp_iff, imp_true_iff, and_true]
    · have hne : key ≠ ⟨ref, (specOf kind).op⟩ := by
        rintro rfl
        rw [hkey (by rw [specOf_op]; rfl)] at hfree
        cases hfree
      rw [mem_shard_runOp hadm hfree hne]
      rw [specOf_op] at hfree
      simp only [specOf_op, hadm, hfree, forall_const]
  | updateBalance k v =>
    show (key, t') ∈ (w.updateBalance k v).1.mgr.shardOf key ↔ _
    rw [shardOf_congr (updateBalance_shards w k v)]
    simp only [Keeps, and_true]

theorem mem_shard_cleanup {now : Time} :
    (key, t') ∈ (w.mgr.cleanupIdempotencyMap now).shardOf key ↔
      ((key, t') ∈ w.mgr.shardOf key ∧ now ≤ t' + idempotencyMaxAge) ∧ Keeps key t' w (.cleanup now) := by
  unfold Manager.shardOf Manager.cleanupIdempotencyMap
  simp only [Keeps, Manager.shardOf]
  split
  · rename_i hover
    simp only [mem_filter, hover, forall_const, Bool.not_eq_true', decide_eq_false_iff_not, not_lt, tsub_le_iff_right]
  · rename_i hover
    simp only [mem_filter, hover, false_imp_iff, and_true, Bool.not_eq_true', decide_eq_false_iff_not, not_lt,
      tsub_le_iff_right]

/-- **What an activity does to a key it does not claim itself**, within ten minutes of `t'`. -/
theorem mem_shard_next {a : Activity} (hkey : a.key = some key → w.mgr.held key = true)
    (htime : ∀ now ∈ a.time, now ≤ t' + idempotencyMaxAge) :
    (key, t') ∈ (w.next a).mgr.shardOf key ↔ (key, t') ∈ w.mgr.shardOf key ∧ Keeps key t' w a := by
  cases a with
  | call e c => exact mem_shard_call hkey t'
  | flush e =>
    show (key, t') ∈ (w.flushOnce e).mgr.shardOf key ↔ _
    rw [shardOf_congr (flushOnce_frame w e).2.1]
    simp only [Keeps, and_true]
  | cleanup now =>
    have hnow := htime now rfl
    rw [World.next, mem_shard_cleanup]
    simp only [hnow, and_true]

theorem mem_shard_of_next {a : Activity} (hkey : a.key = some key → w.mgr.held key = true)
    (h : (key, t') ∈ (w.next a).mgr.shardOf key) : (key, t') ∈ w.mgr.shardOf key := by
  cases a with
  | call e c => exact ((mem_shard_call hkey t').1 h).1
  | flush e => rwa [World.next, shardOf_congr (flushOnce_frame w e).2.1] at h
  | cleanup now => exact (mem_shard_cleanup.1 h).1.1

theorem claimed_next (h : w.mgr.Claimed key t) {a : Activity} (htime : ∀ now ∈ a.time, now ≤ t + idempotencyMaxAge)
    (hkeep : Keeps key t w a) : (w.next a).mgr.Claimed key t := by
  intro t'
  constructor
  · intro hmem
    exact (h t').1 (mem_shard_of_next (fun _ => h.held) hmem)
  · rintro rfl
    exact (mem_shard_next (fun _ => h.held) htime).2 ⟨(h t').2 rfl, hkeep⟩

theorem dropped_next (h : w.mgr.Claimed key t) {a : Activity} (htime : ∀ now ∈ a.time, now ≤ t + idempotencyMaxAge)
    (hdrop : ¬ Keeps key t w a) : (w.next a).mgr.held key = false := by
  rw [held_eq_false_iff]
  intro t' hmem
  obtain rfl := (h t').1 (mem_shard_of_next (fun _ => h.held) hmem)
  exact hdrop ((mem_shard_next (fun _ => h.held) htime).1 hmem).2

theorem claimed_run (h : w.mgr.Claimed key t) (htime : ∀ a ∈ mid, ∀ now ∈ a.time, now ≤ t + idempotencyMaxAge)
    (hkeep : Along World.next (Keeps key t) w mid) : (run World.next w mid).mgr.Claimed key t := by
  induction mid generalizing w with
  | nil => exact h
  | cons a mid ih =>
    obtain ⟨ha, hmid⟩ := forall_mem_cons.1 htime
    exact ih (claimed_next h ha hkeep.1) hmid hkeep.2

theorem unheld_run (h : w.mgr.held key = false) (hkey : ∀ a ∈ mid, a.key ≠ some key) :
    (run World.next w mid).mgr.held key = false := by
  induction mid generalizing w with
  | nil => exact h
  | cons a mid ih =>
    obtain ⟨ha, hmid⟩ := forall_mem_cons.1 hkey
    rw [held_eq_false_iff] at h
    exact ih (held_eq_false_iff.2 fun t' hmem => h t' (mem_shard_of_next (fun hnow => absurd hnow ha) hmem)) hmid

/-- **The key is still there exactly if every activity keeps it.** -/
theorem claimed_iff (h : w.mgr.Claimed key t) (htime : ∀ a ∈ mid, ∀ now ∈ a.time, now ≤ t + idempotencyMaxAge)
    (hkey : ∀ a ∈ mid, a.key ≠ some key) :
    (run World.next w mid).mgr.held key = true ↔ Along World.next (Keeps key t) w mid := by
  refine ⟨fun hheld => ?_, fun hkeep => (claimed_run h htime hkeep).held⟩
  induction mid generalizing w with
  | nil => trivial
  | cons a mid ih =>
    obtain ⟨hat, hmidt⟩ := forall_mem_cons.1 htime
    obtain ⟨hak, hmidk⟩ := forall_mem_cons.1 hkey
    by_cases hkeep : Keeps key t w a
    · exact ⟨hkeep, ih (claimed_next h hat hkeep) hmidt hmidk hheld⟩
    · rw [run_cons, unheld_run (dropped_next h hat hkeep) hmidk] at hheld
      cases hheld

/-! ## The second call -/

/-- Under a free key the operation changes the counters: it passes its checks and its guard,
the amount is at least a micro-unit, the log takes it, and no failed flush takes it back. -/
structure Effective (o : OpSpec) (w : World) (e : CallEnv) (k : PositionKey) (amount : Decimal) (ref : UUID) : Prop where
  admits : Admits o w amount
  allowed : ∃ ps a, w.mgr.positions k = some ps ∧ toMicro amount = some a ∧ o.guard k ps a ref = none ∧ a ≠ 0
  log : LogOK w e
  flush : o.sync = .rollback → w.mgr.isLarge k.currency amount = true → e.flush = .ok

instance (o : OpSpec) (w : World) (e : CallEnv) (k : PositionKey) (amount : Decimal) (ref : UUID) :
    Decidable (Effective o w e k amount ref) :=
  decidable_of_iff (Admits o w amount ∧
      (∃ ps ∈ w.mgr.positions k, ∃ a ∈ toMicro amount, o.guard k ps a ref = none ∧ a ≠ 0) ∧ LogOK w e ∧
      (o.sync = .rollback → w.mgr.isLarge k.currency amount = true → e.flush = .ok))
    ⟨fun ⟨hadm, ⟨ps, hps, a, ha, hrest⟩, hlog, hflush⟩ => ⟨hadm, ⟨ps, a, hps, ha, hrest⟩, hlog, hflush⟩,
      fun ⟨hadm, ⟨ps, a, hps, ha, hrest⟩, hlog, hflush⟩ => ⟨hadm, ⟨ps, hps, a, ha, hrest⟩, hlog, hflush⟩⟩

section Call

variable {o : OpSpec} {e : CallEnv} {k : PositionKey} {amount : Decimal} {ref : UUID} {refType : String}
  {ps : PositionState} {a : ℤ} {kind : ReserveOpType}

theorem opBody_unflushed (hroll : o.sync = .rollback) (hlarge : w.mgr.isLarge k.currency amount = true)
    (hf : e.flush ≠ .ok) : (opBody o w e k amount ref refType).2 ≠ .nil := by
  rcases hb : opBody o w e k amount ref refType with ⟨w', r⟩
  rintro rfl
  rcases opBody_cases hb with ⟨hr, -⟩ | ⟨_, hr, -⟩ | ⟨ps, a, -, hlog, ha, hps, hg, -⟩
  · cases hr
  · cases hr
  obtain ⟨m, err, hs, -, heq⟩ := opBody_allowed hps ha hg
  have hlarge₁ : m.isLarge k.currency amount = true := (hs.config.isLarge k.currency amount).trans hlarge
  rw [heq, if_pos hlog] at hb
  simp [OpSpec.finish, syncFlush_eq, hroll, hlarge₁, hf] at hb

theorem effect_apply_ne (ha : a ≠ 0) : (specOf kind).effect.apply a ps ≠ ps := by
  intro h
  have hb := congrArg PositionState.balanceMicro h
  have hr := congrArg PositionState.reservedMicro h
  simp only [specOf_effect] at hb hr
  cases kind <;> simp at hb hr <;> omega

theorem effect_apply_zero : o.effect.apply 0 ps = ps := by
  cases ps
  simp [Effect.apply]

/-- **When a call under a free key changes the counters.** -/
theorem counters_change_iff (hfree : w.mgr.held ⟨ref, kind⟩ = false) :
    (w.exec e (.op kind k amount ref refType)).1.mgr.positions ≠ w.mgr.positions ↔
      Effective (specOf kind) w e k amount ref := by
  rcases hex : w.exec e (.op kind k amount ref refType) with ⟨w', r⟩
  have hout := exec_op hex
  constructor
  · intro hchange
    rw [exec_eq_runOp] at hex
    rcases runOp_positions (specOf kind) w e k amount ref (kind.refType refType) with
      hsame | ⟨hadm, -, ps, a, hps, ha, hg, hpos⟩
    · rw [hex] at hsame
      exact absurd hsame hchange
    rw [hex] at hpos
    have hzero : a ≠ 0 := by
      rintro rfl
      rw [effect_apply_zero, Manager.setPosition_self hps] at hpos
      exact hchange hpos
    cases hout with
    | rejected | duplicate | panicked => exact absurd rfl hchange
    | failed _ hsame => exact absurd hsame hchange
    | applied _ hlog =>
      refine ⟨hadm, ⟨ps, a, hps, ha, hg, hzero⟩, hlog, fun hroll hlarge => ?_⟩
      by_contra hf
      rcases runOp_cases (specOf kind) w e k amount ref (kind.refType refType) with ⟨hno, -⟩ | ⟨-, hheld, -⟩ | ⟨-, -, heq⟩
      · exact hno hadm
      · rw [specOf_op, hfree] at hheld
        cases hheld
      · have hno : (opBody (specOf kind) { w with mgr := w.mgr.acquire e.now ⟨ref, (specOf kind).op⟩ } e k amount ref
            (kind.refType refType)).2 ≠ .nil := opBody_unflushed hroll hlarge hf
        rw [hex] at heq
        rw [← giveBack_snd ⟨ref, (specOf kind).op⟩, ← heq] at hno
        exact hno rfl
  · rintro ⟨hadm, ⟨ps, a, hps, ha, hg, hzero⟩, hlog, hflush⟩ hsame
    obtain rfl := hout.nil hadm.1 (microInRange_of_toMicro ha) hadm.2.2 hps ha hg hlog hflush
    cases hout with
    | duplicate hheld =>
      rw [specOf_op, hfree] at hheld
      cases hheld
    | @applied _ ps' a' _ _ _ ha' hps' _ hpos =>
      cases hps.symm.trans hps'
      cases ha.symm.trans ha'
      have hat := congrFun (hpos.symm.trans hsame) k
      rw [Function.update_self, hps] at hat
      exact effect_apply_ne hzero (Option.some.inj hat)

theorem counters_held (hheld : w.mgr.held ⟨ref, kind⟩ = true) :
    (w.exec e (.op kind k amount ref refType)).1.mgr.positions = w.mgr.positions := by
  rw [exec_eq_runOp]
  rcases runOp_positions (specOf kind) w e k amount ref (kind.refType refType) with hsame | ⟨-, hfree, -⟩
  · exact hsame
  · rw [specOf_op, hheld] at hfree
    cases hfree

theorem claimed_of_effect (hfree : w.mgr.held ⟨ref, kind⟩ = false)
    (hnil : (w.exec e (.op kind k amount ref refType)).2 = .nil) :
    (w.exec e (.op kind k amount ref refType)).1.mgr.Claimed ⟨ref, kind⟩ e.now := by
  rcases hex : w.exec e (.op kind k amount ref refType) with ⟨w', r⟩
  rw [hex] at hnil
  obtain rfl : r = .nil := hnil
  cases exec_op hex with
  | duplicate hheld =>
    rw [specOf_op, hfree] at hheld
    cases hheld
  | applied _ _ _ _ _ _ _ hkeys =>
    intro t'
    rw [specOf_op] at hkeys
    rw [shardOf_congr hkeys, Manager.shardOf, Manager.acquire_shard, if_pos rfl, mem_cons]
    constructor
    · rintro (h | h)
      · cases h
        rfl
      -- before the call the key was free
      · exact absurd (Manager.mem_forcedCleanup.1 h).1 (held_eq_false_iff.1 hfree t')
    · rintro rfl
      exact .inl rfl

end Call

/-- **The window.** A call claims its pair of reference and operation and returns nil, and a second
call of the pair comes at most ten minutes later. If every activity in between keeps the key, it
changes no counter. If no call of the pair comes in between, it changes no counter only then, or if
it would not do so under a free key either. -/
theorem window_iff (w : World) (e₁ e₂ : CallEnv) (kind : ReserveOpType) (k₁ k₂ : PositionKey)
    (amount₁ amount₂ : Decimal) (ref : UUID) (refType₁ refType₂ : String) (mid : List Activity)
    (hfree : w.mgr.held ⟨ref, kind⟩ = false)
    (hnil : (w.exec e₁ (.op kind k₁ amount₁ ref refType₁)).2 = .nil)
    (hwindow : e₂.now ≤ e₁.now + idempotencyMaxAge) (htime : ∀ a ∈ mid, ∀ now ∈ a.time, e₁.now ≤ now ∧ now ≤ e₂.now) :
    let w₁ := (w.exec e₁ (.op kind k₁ amount₁ ref refType₁)).1
    let w₂ := run World.next w₁ mid
    (Along World.next (Keeps ⟨ref, kind⟩ e₁.now) w₁ mid →
      (w₂.exec e₂ (.op kind k₂ amount₂ ref refType₂)).1.mgr.positions = w₂.mgr.positions) ∧
    ((∀ a ∈ mid, a.key ≠ some ⟨ref, kind⟩) →
      ((w₂.exec e₂ (.op kind k₂ amount₂ ref refType₂)).1.mgr.positions = w₂.mgr.positions ↔
        Along World.next (Keeps ⟨ref, kind⟩ e₁.now) w₁ mid ∨ ¬ Effective (specOf kind) w₂ e₂ k₂ amount₂ ref)) := by
  intro w₁ w₂
  have hclaimed : w₁.mgr.Claimed ⟨ref, kind⟩ e₁.now := claimed_of_effect hfree hnil
  have hlate : ∀ a ∈ mid, ∀ now ∈ a.time, now ≤ e₁.now + idempotencyMaxAge :=
    fun a ha now hnow => (htime a ha now hnow).2.trans hwindow
  have hkeep : Along World.next (Keeps ⟨ref, kind⟩ e₁.now) w₁ mid →
      (w₂.exec e₂ (.op kind k₂ amount₂ ref refType₂)).1.mgr.positions = w₂.mgr.positions :=
    fun h => counters_held (claimed_run hclaimed hlate h).held
  refine ⟨hkeep, fun hkey => ?_⟩
  have hiff := claimed_iff hclaimed hlate hkey
  constructor
  · intro hsame
    by_contra hno
    rw [not_or, not_not] at hno
    have hfree₂ : w₂.mgr.held ⟨ref, kind⟩ = false := Bool.eq_false_iff.2 fun h => hno.1 (hiff.1 h)
    exact (counters_change_iff hfree₂).2 hno.2 hsame
  · rintro (h | h)
    · exact hkeep h
    · by_contra hchange
      by_cases hheld : w₂.mgr.held ⟨ref, kind⟩ = true
      · exact hchange (counters_held hheld)
      · exact h ((counters_change_iff (Bool.eq_false_iff.2 hheld)).1 hchange)

def creditStep (k : PositionKey) (now : Time) (r : UUID) : Step :=
  (⟨now, .ok, true, .ok⟩, .op .credit k 1 r "deposit")

theorem repeated_credit_ignored :
    let w₁ := ((single usdPosition ⟨1, 0, 0, 0, 0⟩).exec (creditStep usdPosition 0 1).1 (creditStep usdPosition 0 1).2).1
    let w₂ := run World.next w₁ [.cleanup (5 * minute)]
    (w₂.exec (creditStep usdPosition (5 * minute) 1).1 (creditStep usdPosition (5 * minute) 1).2).1.mgr.positions =
      w₂.mgr.positions := by
  refine (window_iff (single usdPosition ⟨1, 0, 0, 0, 0⟩) ⟨0, .ok, true, .ok⟩ ⟨5 * minute, .ok, true, .ok⟩ .credit
    usdPosition usdPosition 1 1 1 "deposit" "deposit" [.cleanup (5 * minute)] (by decide +kernel) (by decide +kernel)
    (by decide) ?_).1 ⟨fun hfull => ?_, trivial⟩
  · intro a ha now hnow
    rw [mem_singleton] at ha
    subst ha
    cases hnow
    exact ⟨by decide, le_refl _⟩
  · exact absurd hfull (by decide +kernel)

/-! ### A full shard -/

section FullShard

variable {k : PositionKey} {s : Fin 16} {r : UUID} {refs : List UUID}

theorem crowded_shard (kind : ReserveOpType) : ∃ (s : Fin 16) (refs : List UUID), refs.Nodup ∧
    Manager.maxIdempotencyMapSize / 16 < refs.length ∧
    ∀ r ∈ refs, idempotencyShardFor ⟨r, kind⟩ = s := by
  let f : Fin 500001 → Fin 16 := fun i => idempotencyShardFor ⟨BitVec.ofNat 128 i, kind⟩
  obtain ⟨s, hs⟩ := Fintype.exists_lt_card_fiber_of_mul_lt_card f
    (n := Manager.maxIdempotencyMapSize / 16) (by simp [Manager.maxIdempotencyMapSize])
  refine ⟨s, (Finset.univ.filter (f · = s)).toList.map fun i : Fin 500001 => BitVec.ofNat 128 i.val, ?_, ?_, ?_⟩
  · refine (Finset.nodup_toList _).map ?_
    intro i j hij
    have := congrArg BitVec.toNat hij
    simp only [BitVec.toNat_ofNat] at this
    rw [Nat.mod_eq_of_lt (by omega), Nat.mod_eq_of_lt (by omega)] at this
    exact Fin.ext this
  · simpa using hs
  · simp only [mem_map, Finset.mem_toList, Finset.mem_filter]
    rintro r ⟨i, ⟨-, hi⟩, rfl⟩
    exact hi

/-- A position with nothing committed that accepts small credits. -/
structure Accepts (w : World) (k : PositionKey) : Prop where
  position : ∃ ps, w.mgr.positions k = some ps ∧ ps.lockedMicro = 0 ∧ ps.reservedMicro = 0
  failures : w.mgr.consecutiveFlushFailures = 0
  small : w.mgr.isLarge k.currency 1 = false

theorem inRange_one : microInRange 1 = true := by decide +kernel

theorem creditStep_applied (now : Time) (hk : Accepts w k) (hheld : w.mgr.held ⟨r, .credit⟩ = false) :
    ∃ w' ps, w.exec (creditStep k now r).1 (creditStep k now r).2 = (w', .nil) ∧ Accepts w' k ∧
      w.mgr.positions k = some ps ∧
      w'.mgr.positions k = some (creditSpec.effect.apply 1000000 ps) ∧
      w'.mgr.idempotencyShards = (w.mgr.acquire now ⟨r, .credit⟩).idempotencyShards := by
  obtain ⟨ps, hps, hl, hr⟩ := hk.position
  have hmicro : toMicro 1 = some 1000000 := by decide +kernel
  rcases hex : w.exec (creditStep k now r).1 (creditStep k now r).2 with ⟨w', res⟩
  obtain rfl : res = .nil := by
    refine (exec_op hex).nil one_pos inRange_one (.inr ?_) hps hmicro rfl (.inr ⟨rfl, rfl⟩) ?_
    · rw [hk.failures]; decide
    · simp [hk.small]
  cases exec_op hex with
  | duplicate hdup => simp [specOf, creditSpec, hheld] at hdup
  | @applied _ ps' a _ _ _ ha hps' _ hpos hkeys hcfg =>
    obtain rfl : ps' = ps := by rw [hps] at hps'; simpa using hps'.symm
    obtain rfl : a = 1000000 := by rw [hmicro] at ha; simpa using ha.symm
    have hpos' : w'.mgr.positions k = some (creditSpec.effect.apply 1000000 ps') := by
      rw [hpos, Function.update_self]; rfl
    refine ⟨w', ps', rfl, ⟨⟨_, hpos', ?_, ?_⟩, hcfg.failures.trans hk.failures, ?_⟩, hps, hpos', hkeys⟩
    · simp [creditSpec, hl]
    · simp [creditSpec, hr]
    · rw [hcfg.isLarge]; exact hk.small

/-- The items a shard holds after credits of `refs` at time zero. -/
def creditItems (refs : List UUID) : List (IdempotencyKey × Time) :=
  refs.reverse.map fun r => (⟨r, .credit⟩, 0)

theorem forcedCleanup_now (refs : List UUID) : Manager.forcedCleanup 0 (creditItems refs) = creditItems refs := by
  unfold Manager.forcedCleanup
  split
  · rw [filter_eq_self]
    simp only [creditItems, mem_map]
    rintro _ ⟨r, -, rfl⟩
    rfl
  · rfl

theorem forcedCleanup_late (h : Manager.maxIdempotencyMapSize / 16 ≤ refs.length) :
    Manager.forcedCleanup (3 * minute) (creditItems refs) = [] := by
  unfold Manager.forcedCleanup
  rw [if_pos (by simpa [creditItems] using h), filter_eq_nil_iff]
  simp only [creditItems, mem_map]
  rintro _ ⟨r, -, rfl⟩
  show ¬ (!decide ((0 : Time) < 3 * minute - Manager.forcedCleanupMaxAge)) = true
  decide

theorem held_of_items (hs : idempotencyShardFor ⟨r, .credit⟩ = s)
    (hm : m.idempotencyShards s = creditItems refs) : m.held ⟨r, .credit⟩ = decide (r ∈ refs) := by
  rw [Bool.eq_iff_iff, Manager.held_iff, hs, hm]
  simp [creditItems]

theorem after_append (w : World) (xs ys : List Step) : w.after (xs ++ ys) = (w.after xs).after ys :=
  run_append ..

theorem credits_fill (done refs : List UUID) (hk : Accepts w k) (hnd : (done ++ refs).Nodup)
    (hs : ∀ r ∈ refs, idempotencyShardFor ⟨r, .credit⟩ = s) (hm : w.mgr.idempotencyShards s = creditItems done) :
    Accepts (w.after (refs.map (creditStep k 0))) k ∧
      (w.after (refs.map (creditStep k 0))).mgr.idempotencyShards s = creditItems (done ++ refs) := by
  induction refs generalizing done w with
  | nil => simpa [World.after] using ⟨hk, hm⟩
  | cons r refs ih =>
    have hr : idempotencyShardFor ⟨r, .credit⟩ = s := hs r mem_cons_self
    have hnew : r ∉ done := fun hmem =>
      (nodup_append.1 hnd).2.2 r hmem r mem_cons_self rfl
    have hheld : w.mgr.held ⟨r, .credit⟩ = false := by
      rw [held_of_items hr hm]; simpa using hnew
    obtain ⟨w', ps, hex, hk', -, -, hkeys⟩ := creditStep_applied 0 hk hheld
    have hm' : w'.mgr.idempotencyShards s = creditItems (done ++ [r]) := by
      rw [hkeys, Manager.acquire_shard, if_pos hr.symm, hm, forcedCleanup_now]
      simp [creditItems]
    have hafter : w.after ((r :: refs).map (creditStep k 0)) = w'.after (refs.map (creditStep k 0)) := by
      simp only [World.after, map_cons, run_cons, hex]
    rw [hafter, append_cons]
    rw [append_cons] at hnd
    exact ih _ hk' hnd (fun r' hr' => hs r' (mem_cons_of_mem _ hr')) hm'

theorem full_shard_forgets {r₀ : UUID} {rs : List UUID} (hk : Accepts w k)
    (hm : w.mgr.idempotencyShards s = creditItems (r₀ :: rs))
    (hlen : Manager.maxIdempotencyMapSize / 16 ≤ (r₀ :: rs).length) (hnew : r ∉ r₀ :: rs)
    (hr : idempotencyShardFor ⟨r, .credit⟩ = s) (hr₀ : idempotencyShardFor ⟨r₀, .credit⟩ = s) :
    ∃ w', w.exec (creditStep k (3 * minute) r).1 (creditStep k (3 * minute) r).2 = (w', .nil) ∧
      Accepts w' k ∧ w'.mgr.held ⟨r₀, .credit⟩ = false := by
  have hheld : w.mgr.held ⟨r, .credit⟩ = false := by
    rw [held_of_items hr hm]; simpa using hnew
  obtain ⟨w', _, hex, hk', -, -, hkeys⟩ := creditStep_applied (3 * minute) hk hheld
  refine ⟨w', hex, hk', ?_⟩
  have hne : r ≠ r₀ := fun h => hnew (by simp [h])
  have hm' : w'.mgr.idempotencyShards s = [(⟨r, .credit⟩, 3 * minute)] := by
    rw [hkeys, Manager.acquire_shard, if_pos hr.symm, hm, forcedCleanup_late hlen]
  simp [Manager.held, hr₀, hm', hne]

/-- `r₀` and the others fill the shard, `r` empties it, and `r₀` is new again. -/
theorem shard_run : ∃ (r r₀ : UUID) (rs : List UUID) (w₁ w₂ : World), (r :: r₀ :: rs).Nodup ∧
    (single usdPosition ⟨1, 0, 0, 0, 0⟩).exec (creditStep usdPosition 0 r₀).1 (creditStep usdPosition 0 r₀).2 = (w₁, .nil) ∧
    w₁.after (rs.map (creditStep usdPosition 0) ++ [creditStep usdPosition (3 * minute) r]) = w₂ ∧
    Accepts w₂ usdPosition ∧ w₂.mgr.held ⟨r₀, .credit⟩ = false := by
  obtain ⟨s, refs, hnd, hlen, hs⟩ := crowded_shard .credit
  obtain ⟨r, r₀, rs, rfl⟩ : ∃ r r₀ rs, refs = r :: r₀ :: rs := by
    match refs, hlen with
    | r :: r₀ :: rs, _ => exact ⟨r, r₀, rs, rfl⟩
  have hmem : ∀ r' ∈ r₀ :: rs, idempotencyShardFor ⟨r', .credit⟩ = s :=
    fun r' hr' => hs r' (mem_cons_of_mem _ hr')
  have hk : Accepts (single usdPosition ⟨1, 0, 0, 0, 0⟩) usdPosition :=
    ⟨⟨⟨1, 0, 0, 0, 0⟩, by simp [single], rfl, rfl⟩, rfl, by decide +kernel⟩
  obtain ⟨w₁, _, hex₁, hk₁, -, -, hkeys₁⟩ := creditStep_applied (r := r₀) 0 hk rfl
  have hm₁ : w₁.mgr.idempotencyShards s = creditItems [r₀] := by
    rw [hkeys₁, Manager.acquire_shard, if_pos (hmem r₀ mem_cons_self).symm]
    rfl
  obtain ⟨hk₂, hm₂⟩ := credits_fill [r₀] rs hk₁ hnd.of_cons (fun r' hr' => hmem r' (mem_cons_of_mem _ hr')) hm₁
  obtain ⟨w₂, hex₂, hk₃, hfree⟩ := full_shard_forgets hk₂ hm₂ (Nat.le_of_lt_succ hlen) (nodup_cons.1 hnd).1
    (hs r mem_cons_self) (hmem r₀ mem_cons_self)
  refine ⟨r, r₀, rs, w₁, w₂, hnd, hex₁, ?_, hk₃, hfree⟩
  rw [after_append]
  simp only [World.after, run_cons, run_nil] at hex₂ ⊢
  rw [hex₂]

end FullShard

def callsOf (steps : List Step) : List Activity := steps.map fun s => .call s.1 s.2

theorem run_callsOf (w : World) (steps : List Step) : run World.next w (callsOf steps) = w.after steps := by
  induction steps generalizing w with
  | nil => rfl
  | cons s steps ih => exact ih _

/-- **A credit is applied twice within three minutes**, after its shard has filled up. -/
theorem window_broken : ∃ (w : World) (ref : UUID) (mid : List Activity),
    let first := creditStep usdPosition 0 ref
    let second := creditStep usdPosition (3 * minute) ref
    let w₁ := (w.exec first.1 first.2).1
    let w₂ := run World.next w₁ mid
    w.mgr.held ⟨ref, .credit⟩ = false ∧ (w.exec first.1 first.2).2 = .nil ∧
    (∀ a ∈ mid, ∀ now ∈ a.time, 0 ≤ now ∧ now ≤ 3 * minute) ∧ (∀ a ∈ mid, a.key ≠ some ⟨ref, .credit⟩) ∧
    (w₂.exec second.1 second.2).1.mgr.positions ≠ w₂.mgr.positions := by
  obtain ⟨r, r₀, rs, w₁, w₂, hnd, hex₁, hmid, hk₂, hfree₂⟩ := shard_run
  obtain ⟨w₃, ps, hex₃, -, hps, hpos, -⟩ := creditStep_applied (3 * minute) hk₂ hfree₂
  rw [← run_callsOf] at hmid
  have hminutes : 0 ≤ 3 * minute := by decide
  refine ⟨_, r₀, callsOf (rs.map (creditStep usdPosition 0) ++ [creditStep usdPosition (3 * minute) r]), rfl,
    by rw [hex₁], ?_, ?_, ?_⟩
  · simp only [callsOf, map_append, map_map, mem_append, mem_map, map_cons, map_nil,
      mem_singleton]
    rintro a (⟨r', -, rfl⟩ | rfl) now hnow
    · cases hnow
      exact ⟨le_refl _, hminutes⟩
    · cases hnow
      exact ⟨hminutes, le_refl _⟩
  · simp only [nodup_cons, mem_cons, not_or] at hnd
    simp only [callsOf, map_append, map_map, mem_append, mem_map, map_cons, map_nil,
      mem_singleton]
    rintro a (⟨r', hr', rfl⟩ | rfl) hkey
    · cases hkey
      exact hnd.2.1 hr'
    · cases hkey
      exact hnd.1.1 rfl
  · simp only [hex₁, hmid, hex₃]
    intro hsame
    have hat := congrFun hsame usdPosition
    rw [hpos, hps] at hat
    have hne : (specOf .credit).effect.apply 1000000 ps ≠ ps := effect_apply_ne (by decide)
    exact hne (Option.some.inj hat)

end Settla.Treasury
