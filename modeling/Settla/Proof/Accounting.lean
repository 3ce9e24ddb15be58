import Settla.Lib.Account
import Settla.Lib.Run
import Settla.Proof.Manager

/-!
# The accounting identity

The manager refines a book of accounts with reservations. A call counts when it is the first of its pair of
reference and kind to return nil (`firstNil`); it then posts one entry, and every other call leaves the book alone.
Each call that counts takes a place in the channel `pendingOps`, which holds fewer entries than a shard of the
idempotency map before its forced cleanup, so that a run of calls alone never forgets a key.
-/

namespace Settla.Treasury

open Lib List Function

/-! ## Runs of calls -/

abbrev Step := CallEnv × Call

def World.after (w : World) (steps : List Step) : World := run (fun w s => (w.exec s.1 s.2).1) w steps

def Call.key : Call → Option IdempotencyKey
  | .op kind _ _ ref _ => some ⟨ref, kind⟩
  | .updateBalance _ _ => none

def Call.InRange : Call → Prop
  | .op _ _ amount _ _ => microInRange amount = true
  | .updateBalance _ v => microInRange v = true

instance : DecidablePred Call.InRange
  | .op _ _ amount _ _ => inferInstanceAs (Decidable (microInRange amount = true))
  | .updateBalance _ v => inferInstanceAs (Decidable (microInRange v = true))

def Unflushed.after (s : Unflushed) (steps : List Step) : Unflushed := run (fun s st => (s.exec st.1 st.2).1) s steps

/-- The calls of a run with their results. -/
def Unflushed.trace (s : Unflushed) : List Step → List (Call × Result)
  | [] => []
  | st :: steps => (st.2, (s.exec st.1 st.2).2) :: (s.exec st.1 st.2).1.trace steps

/-- The calls that count: of each pair of reference and kind the first that returned nil, given the
pairs seen before. `UpdateBalance` has no reference. -/
def firstNil (seen : IdempotencyKey → Bool) : List (Call × Result) → List Call
  | [] => []
  | (c, r) :: evs =>
    match r, c.key with
    | .nil, some key => if seen key then firstNil seen evs else c :: firstNil (update seen key true) evs
    | .nil, none => c :: firstNil seen evs
    | _, _ => firstNil seen evs

/-! ## The book entry of a call -/

def ReserveOpType.move : ReserveOpType → Move
  | .reserve => .reserve
  | .release => .release
  | .commit => .commit
  | .consume => .consume
  | .credit => .credit
  | .debit => .debit

def micro (d : Decimal) : ℤ := (toMicro d).getD 0

def Call.entry : Call → Entry PositionKey
  | .op kind k amount _ _ => .move kind.move k (micro amount)
  | .updateBalance k v => .set k (micro v)

def SameCounters (ps : PositionState) (x : Account) : Prop :=
  ps.balanceMicro = x.balance ∧ ps.lockedMicro = x.locked ∧ ps.reservedMicro = x.reserved

/-- The manager holds the positions of a book, with its counters. -/
def Refines (m : Manager) (b : Book PositionKey) : Prop :=
  ∀ k, Option.Rel SameCounters (m.positions k) (b k)

variable {x : Account} {b : Book PositionKey} {s : Fin 16} {m : Manager} {k : PositionKey} {ps : PositionState}
  {r : UUID} {w : World}

theorem refines_update {m' : Manager} (h : Refines m b) (hx : SameCounters ps x)
    (hm : m'.positions = update m.positions k (some ps)) : Refines m' (update b k (some x)) := by
  intro k'
  rw [hm]
  by_cases hk : k' = k
  · subst hk
    simpa using Option.Rel.some hx
  · simpa [hk] using h k'

theorem specOf_refines {op : ReserveOpType} {a : ℤ} {ref : UUID} (hx : SameCounters ps x) (ha : 0 ≤ a)
    (hg : (specOf op).guard k ps a ref = none) :
    ∃ hal : x.Allows a op.move, SameCounters ((specOf op).effect.apply a ps) (x.post op.move a ha hal) := by
  rw [guard_eq_none] at hg
  obtain ⟨hb, hl, hr⟩ := hx
  have hal : x.Allows a op.move := by
    cases op <;>
      simp only [PositionState.Allows, PositionState.available, ReserveOpType.move, Account.Allows,
        Account.free] at hg ⊢ <;> omega
  refine ⟨hal, ?_⟩
  cases op <;>
    simp only [SameCounters, specOf_effect, Effect.apply_balance, Effect.apply_locked, Effect.apply_reserved,
      ReserveOpType.move, Account.post] <;> omega

theorem Refines.position (h : Refines m b) (hps : m.positions k = some ps) :
    ∃ x, b k = some x ∧ SameCounters ps x := by
  have hk := h k
  rw [hps] at hk
  cases hb : b k with
  | none => rw [hb] at hk; cases hk
  | some x => rw [hb] at hk; cases hk with | some hx => exact ⟨x, rfl, hx⟩

theorem Refines.account (h : Refines m b) (hx : b k = some x) :
    ∃ ps, m.positions k = some ps ∧ SameCounters ps x := by
  have hk := h k
  rw [hx] at hk
  cases hps : m.positions k with
  | none => rw [hps] at hk; cases hk
  | some ps => rw [hps] at hk; cases hk with | some hsame => exact ⟨ps, rfl, hsame⟩

theorem micro_eq {amount : Decimal} {a : ℤ} (h : toMicro amount = some a) : micro amount = a := by
  simp [micro, h]

/-! ## No key is dropped

Without the flush loop every key in the map has its entry in the channel, so no shard comes near the size at
which it is cleaned up.
-/

def Manager.Small (m : Manager) : Prop := ∀ i, (m.idempotencyShards i).length < Manager.maxIdempotencyMapSize / 16

variable {now : Time} {key key' : IdempotencyKey}

theorem acquire_small (h : m.Small) (i : Fin 16) : (m.acquire now key).idempotencyShards i =
    if i = idempotencyShardFor key then (key, now) :: m.idempotencyShards i else m.idempotencyShards i := by
  rw [Manager.acquire_shard, Manager.forcedCleanup, if_neg (not_le.2 (h i))]

theorem held_acquire_small (h : m.Small) : (m.acquire now key).held key' = (decide (key' = key) || m.held key') := by
  unfold Manager.held
  rw [acquire_small h]
  split
  · simp [eq_comm]
  · rename_i hne
    have hkey : key' ≠ key := fun heq => hne (heq ▸ rfl)
    simp [hkey]

theorem rollback_acquire_small (h : m.Small) (hfree : m.held key = false) :
    ((m.acquire now key).rollbackIdempotency key).idempotencyShards = m.idempotencyShards := by
  funext i
  rw [Manager.rollback_shard, acquire_small h]
  split
  · rename_i hi
    subst hi
    have hnone : ∀ it ∈ m.idempotencyShards (idempotencyShardFor key), it.1 ≠ key := by
      simpa [Manager.held] using hfree
    simpa using hnone
  · rfl

theorem Persist.reserveOps {o : OpSpec} {e : CallEnv} {amount : Decimal} {db db' : DB} {dirty : List PositionKey}
    (h : Persist o w e k amount db ps db' dirty) : db'.reserveOps = db.reserveOps := by
  have hflushed : (db.flushed e ps).reserveOps = db.reserveOps := by
    unfold DB.flushed
    split <;> rfl
  cases h with
  | deferred => rfl
  | flushed => exact hflushed
  | unflushed => exact hflushed

/-- The keys after a call that returns: as before, or with the call's own, and then the log took its row. -/
theorem Outcome.keys {o : OpSpec} {w' : World} {e : CallEnv} {amount : Decimal} {ref : UUID} {r : Result}
    (h : Outcome o w e k amount ref w' r) (hsmall : w.mgr.Small) (hr : r ≠ .panic) :
    w'.mgr.replaying = w.mgr.replaying ∧
    (w'.mgr.idempotencyShards = w.mgr.idempotencyShards ∨
      w'.mgr.idempotencyShards = (w.mgr.acquire e.now ⟨ref, o.op⟩).idempotencyShards ∧ LogOK w e ∧
        (w.mgr.replaying = false → w.db.reserveOps.length < w'.db.reserveOps.length)) := by
  cases h with
  | rejected => exact ⟨rfl, .inl rfl⟩
  | duplicate => exact ⟨rfl, .inl rfl⟩
  | panicked => exact absurd rfl hr
  | failed held _ keys config => exact ⟨config.replaying, .inl (keys.trans (rollback_acquire_small hsmall held))⟩
  | applied _ log _ _ _ _ _ keys config persist =>
    refine ⟨config.replaying, .inr ⟨keys, log, fun hlive => ?_⟩⟩
    have hwal : e.wal = .ok := (log.resolve_left (by simp [hlive])).1
    rw [persist.reserveOps]
    simp [World.logged, hlive, hwal, StoreResult.kept, DB.insertReserveOp]

/-- Every key in the map has its entry in the channel. -/
structure Unflushed.Queued (s : Unflushed) : Prop where
  live : s.world.mgr.replaying = false
  pending_le : s.pending ≤ Manager.pendingOpsCap
  keys_le : ∀ i, (s.world.mgr.idempotencyShards i).length ≤ s.pending

theorem Unflushed.Queued.small {s : Unflushed} (h : s.Queued) : s.world.mgr.Small := by
  intro i
  have hcap : Manager.pendingOpsCap < Manager.maxIdempotencyMapSize / 16 := by decide
  exact ((h.keys_le i).trans h.pending_le).trans_lt hcap

theorem Unflushed.exec_world (s : Unflushed) (e : CallEnv) (c : Call) :
    s.world.exec { e with queued := decide (s.pending < Manager.pendingOpsCap) } c =
      ((s.exec e c).1.world, (s.exec e c).2) := rfl

theorem Unflushed.Queued.exec {s : Unflushed} (h : s.Queued) (e : CallEnv) {c : Call} (hin : c.InRange) :
    (s.exec e c).1.Queued := by
  have hex := s.exec_world e c
  have hpending : s.pending ≤ (s.exec e c).1.pending ∧ (s.exec e c).1.pending ≤ Manager.pendingOpsCap := by
    have := h.pending_le
    simp only [Unflushed.exec]
    split
    · rename_i hroom
      simp only [Bool.and_eq_true, decide_eq_true_eq] at hroom
      omega
    · omega
  cases c with
  | op kind k amount ref refType =>
    have hout := exec_op hex
    have hr : (s.exec e (.op kind k amount ref refType)).2 ≠ .panic := by
      intro hp
      rw [hp] at hout
      simp [Call.InRange, hout.panic.2] at hin
    obtain ⟨hlive, hkeys | ⟨hkeys, hlog, hrow⟩⟩ := hout.keys h.small hr
    · exact ⟨hlive.trans h.live, hpending.2, fun i => hkeys ▸ (h.keys_le i).trans hpending.1⟩
    · -- the row was acknowledged and the channel had room: one entry more
      obtain ⟨hwal, hroom⟩ := hlog.resolve_left (by simp [h.live])
      have hone : (s.exec e (.op kind k amount ref refType)).1.pending = s.pending + 1 := by
        simp only [Unflushed.exec]
        rw [if_pos]
        simpa using ⟨of_decide_eq_true hroom, hwal, hrow h.live⟩
      refine ⟨hlive.trans h.live, hpending.2, fun i => ?_⟩
      have hi := h.keys_le i
      rw [hkeys, acquire_small h.small, hone]
      split
      · simpa using hi
      · omega
  | updateBalance k v =>
    rcases updateBalance_cases hex with ⟨hw, -⟩ | ⟨_, _, -, -, -, -, hw⟩
    all_goals exact ⟨hw ▸ h.live, hpending.2, fun i => hw ▸ (h.keys_le i).trans hpending.1⟩

/-! ## Calls and entries -/

/-- What a call does to the book and to the keys: either it counts and posts its entry,
or it leaves the book alone. -/
inductive Refinement (w : World) (b : Book PositionKey) (c : Call) (w' : World) : Result → Prop
  | counts {b' : Book PositionKey} (fresh : ∀ key, c.key = some key → w.mgr.held key = false)
      (keys : ∀ key, w'.mgr.held key = (decide (c.key = some key) || w.mgr.held key))
      (step : Book.Step b c.entry b') (refines : Refines w'.mgr b') : Refinement w b c w' .nil
  | idle {r : Result} (dup : r = .nil → ∃ key, c.key = some key ∧ w.mgr.held key = true)
      (keys : ∀ key, w'.mgr.held key = w.mgr.held key) (refines : Refines w'.mgr b) : Refinement w b c w' r

/-- **One call is one entry, or nothing.** -/
theorem exec_refines {w' : World} {e : CallEnv} {c : Call} {r : Result} (hR : Refines w.mgr b) (hsmall : w.mgr.Small)
    (hin : c.InRange) (h : w.exec e c = (w', r)) : Refinement w b c w' r := by
  cases c with
  | op kind k amount ref refType =>
    cases exec_op h with
    | rejected => exact .idle nofun (fun _ => rfl) hR
    | duplicate hheld => exact .idle (fun _ => ⟨_, rfl, by simpa using hheld⟩) (fun _ => rfl) hR
    | panicked _ _ hout => simp [Call.InRange, hout] at hin
    | failed hfree hpos hkeys =>
      have hsame := hkeys.trans (rollback_acquire_small hsmall hfree)
      exact .idle nofun (fun _ => Manager.held_congr hsame) (fun k' => hpos ▸ hR k')
    | applied hfree _ hamt ha hps hg hpos hkeys =>
      rw [specOf_op] at hfree hkeys
      obtain ⟨x, hx, hsame⟩ := hR.position hps
      obtain ⟨hal, hsame'⟩ := specOf_refines hsame (toMicro_nonneg ha hamt) hg
      refine .counts ?_ (fun key => ?_) ?_ (refines_update hR hsame' hpos)
      · rintro key ⟨⟩
        exact hfree
      · rw [Manager.held_congr hkeys, held_acquire_small hsmall]
        simp [Call.key, eq_comm]
      · simp only [Call.entry, micro_eq ha]
        exact .move hx _ hal
  | updateBalance k v =>
    rcases updateBalance_cases h with ⟨rfl, err, rfl⟩ | ⟨ps, v', rfl, hv, hps, hcov, rfl⟩
    · exact .idle (by simp) (fun _ => rfl) hR
    · obtain ⟨x, hx, hb, hl, hr⟩ := hR.position hps
      have hcov' : x.locked + x.reserved ≤ v' := by rw [← hl, ← hr]; exact hcov
      have hsame : SameCounters { ps with balanceMicro := v' } (x.set v' hcov') := ⟨rfl, hl, hr⟩
      refine .counts (by simp [Call.key]) (fun key => by simp [Call.key]; rfl) ?_ (refines_update hR hsame rfl)
      simp only [Call.entry, micro_eq hv]
      exact .set hx hcov'

/-- **A run is the run of the entries that count.** -/
theorem run_refines {s : Unflushed} {steps : List Step} (hR : Refines s.world.mgr b) (hq : s.Queued)
    (hin : ∀ st ∈ steps, st.2.InRange) :
    ∃ b', Book.Run b ((firstNil s.world.mgr.held (s.trace steps)).map Call.entry) b' ∧
      Refines (s.after steps).world.mgr b' := by
  induction steps generalizing s b with
  | nil => exact ⟨b, .nil b, hR⟩
  | cons st steps ih =>
    obtain ⟨e, c⟩ := st
    have hin₀ : c.InRange := hin _ mem_cons_self
    have hin' : ∀ st ∈ steps, st.2.InRange := fun st hst => hin st (mem_cons_of_mem _ hst)
    have hq' := hq.exec e hin₀
    have hstep := exec_refines hR hq.small hin₀ (s.exec_world e c)
    have hafter : s.after ((e, c) :: steps) = (s.exec e c).1.after steps := rfl
    simp only [Unflushed.trace, firstNil, hafter]
    generalize (s.exec e c).1 = s', (s.exec e c).2 = r at hq' hstep ⊢
    cases hstep with
    -- the call counts: its pair is new, and seen from now on
    | counts fresh keys step refines =>
      obtain ⟨b'', hrun, hR''⟩ := ih refines hq' hin'
      cases hkey : c.key with
      | none =>
        have hseen : s'.world.mgr.held = s.world.mgr.held := funext fun key => by simp [keys, hkey]
        rw [hseen] at hrun
        exact ⟨b'', .cons step hrun, hR''⟩
      | some key =>
        have hseen : s'.world.mgr.held = update s.world.mgr.held key true := by
          funext key'
          by_cases hk : key' = key
          · simp [keys, hkey, hk]
          · simp [keys, hkey, hk, Ne.symm hk]
        rw [hseen] at hrun
        simp only [fresh key hkey, Bool.false_eq_true, if_false, map_cons]
        exact ⟨b'', .cons step hrun, hR''⟩
    -- it does not: an error, or a pair that was seen
    | idle dup keys refines =>
      obtain ⟨b'', hrun, hR''⟩ := ih refines hq' hin'
      rw [funext keys] at hrun
      refine ⟨b'', ?_, hR''⟩
      cases r with
      | nil =>
        obtain ⟨key, hkey, hold⟩ := dup rfl
        simpa [hkey, hold] using hrun
      | err | panic => exact hrun

/-! ## The identity -/

/-- A manager whose positions have just been loaded: nothing reserved, no key claimed, no replay. -/
structure Loaded (w : World) : Prop where
  live : w.mgr.replaying = false
  positions : ∀ k ps, w.mgr.positions k = some ps →
    0 ≤ ps.lockedMicro ∧ ps.lockedMicro ≤ ps.balanceMicro ∧ ps.reservedMicro = 0
  keys : ∀ s, w.mgr.idempotencyShards s = []

theorem Loaded.held (h : Loaded w) (key : IdempotencyKey) : w.mgr.held key = false := by
  simp [Manager.held, h.keys]

theorem Loaded.refines (h : Loaded w) : ∃ b, Refines w.mgr b := by
  have hk : ∀ k, ∃ x, Option.Rel SameCounters (w.mgr.positions k) x := by
    intro k
    cases hps : w.mgr.positions k with
    | none => exact ⟨none, .none⟩
    | some ps =>
      obtain ⟨hl, hb, hr⟩ := h.positions k ps hps
      exact ⟨some ⟨ps.balanceMicro, ps.lockedMicro, ps.reservedMicro, hl, hr.ge, by omega⟩, .some ⟨rfl, rfl, rfl⟩⟩
  -- the book exists position by position
  choose b hb using hk
  exact ⟨b, hb⟩

theorem Loaded.queued (h : Loaded w) : Unflushed.Queued ⟨w, 0⟩ := ⟨h.live, Nat.zero_le _, fun i => by simp [h.keys i]⟩

/-- **The counters are the sums of the calls that count**, and never overdrawn. The run is
arbitrary, so this holds after every call of it. -/
theorem counters_eq_sums (w : World) (hw : Loaded w) (steps : List Step)
    (hin : ∀ st ∈ steps, st.2.InRange) (k : PositionKey) (ps₀ : PositionState)
    (h₀ : w.mgr.positions k = some ps₀) :
    let es := (firstNil (fun _ => false) (Unflushed.trace ⟨w, 0⟩ steps)).map Call.entry
    ∃ ps, (Unflushed.after ⟨w, 0⟩ steps).world.mgr.positions k = some ps ∧
      ps.reservedMicro = total .reserve k es - total .release k es - total .commit k es
        - total .consume k es ∧
      ps.lockedMicro = ps₀.lockedMicro + total .commit k es ∧
      ps.balanceMicro = balanceAfter k ps₀.balanceMicro es ∧
      0 ≤ ps.reservedMicro ∧ 0 ≤ ps.lockedMicro ∧ ps.lockedMicro + ps.reservedMicro ≤ ps.balanceMicro := by
  obtain ⟨b, hR⟩ := hw.refines
  have hseen : w.mgr.held = fun _ => false := funext hw.held
  obtain ⟨b', hrun, hR'⟩ := run_refines hR hw.queued hin
  simp only [hseen] at hrun
  obtain ⟨x, hx, hb, hl, hr⟩ := hR.position h₀
  obtain ⟨x', hx', hr', hl', hb'⟩ := hrun.account hx
  obtain ⟨ps, hps, hpb, hpl, hpr⟩ := hR'.account hx'
  -- the sums start from zero because nothing is reserved at the start
  have hzero : x.reserved = 0 := hr ▸ (hw.positions k ps₀ h₀).2.2
  refine ⟨ps, hps, ?_, ?_, ?_, ?_, ?_, ?_⟩
  · rw [hpr, hr', hzero, zero_add]
  · rw [hpl, hl', hl]
  · rw [hpb, hb', hb]
  · rw [hpr]; exact x'.reserved_nonneg
  · rw [hpl]; exact x'.locked_nonneg
  · rw [hpl, hpr, hpb]; exact x'.covered

theorem single_loaded (hl : 0 ≤ ps.lockedMicro) (hb : ps.lockedMicro ≤ ps.balanceMicro)
    (hr : ps.reservedMicro = 0) : Loaded (single k ps) := by
  refine ⟨rfl, ?_, fun _ => rfl⟩
  intro k' ps' hps
  simp only [single] at hps
  split at hps
  · cases hps; exact ⟨hl, hb, hr⟩
  · cases hps

def lifecycle : List Step :=
  let e : CallEnv := ⟨0, .ok, true, .ok⟩
  [(e, .op .reserve usdPosition 30 1 ""), (e, .op .reserve usdPosition 30 1 ""),
    (e, .op .commit usdPosition 10 1 ""), (e, .op .consume usdPosition 15 1 ""),
    (e, .updateBalance usdPosition 200), (e, .op .credit usdPosition 5 2 "deposit")]

theorem lifecycle_counters :
    ∃ ps, (Unflushed.after ⟨single usdPosition ⟨1, 0, 100000000, 20000000, 0⟩, 0⟩ lifecycle).world.mgr.positions
        usdPosition = some ps ∧ ps.reservedMicro = 5000000 ∧ ps.lockedMicro = 30000000 ∧ ps.balanceMicro = 205000000 := by
  obtain ⟨ps, hps, hr, hl, hb, -⟩ := counters_eq_sums
    (single usdPosition ⟨1, 0, 100000000, 20000000, 0⟩)
    (single_loaded (by decide) (by decide) rfl) lifecycle
    (by decide +kernel) usdPosition ⟨1, 0, 100000000, 20000000, 0⟩ rfl
  refine ⟨ps, hps, hr.trans ?_, hl.trans ?_, hb.trans ?_⟩
  · decide +kernel
  · decide +kernel
  · decide +kernel

end Settla.Treasury
