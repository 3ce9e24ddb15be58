import Settla.Proof.Storage

/-!
# The database a crash leaves

After a crash balance and locked come from the positions table as it was last flushed, reserved from the
reserve operations in the log that no other operation has ended.
-/

namespace Settla.Treasury

open Lib List Function

/-! ## Runs with flushes -/

inductive RecoveryStep
  | op (e : CallEnv) (kind : ReserveOpType) (k : PositionKey) (amount : Decimal) (reference : UUID)
      (refType : String)
  | flush (e : FlushEnv)
  | cleanup (cutoff : Time)

/-- The operation kinds that change what the positions table should hold. -/
def ReserveOpType.movesRow : ReserveOpType → Bool
  | .commit => true
  | .consume => true
  | .credit => true
  | .debit => true
  | .reserve => false
  | .release => false

/-- A world, and the positions that a call has changed since their row was last written. -/
structure Tracked where
  world : World
  stale : List PositionKey

/-- The positions still to be written once the dirty set is known. -/
def staleAfter (took : Bool) (kind : ReserveOpType) (k : PositionKey) (stale dirty : List PositionKey) :
    List PositionKey :=
  ((if took && kind.movesRow then [k] else []) ++ stale).filter (· ∈ dirty)

/-- One step. An operation takes effect when it returns nil and its key was not held. -/
def Tracked.step (s : Tracked) : RecoveryStep → Tracked
  | .op e kind k amount ref refType =>
    let (w, r) := s.world.exec e (.op kind k amount ref refType)
    let took := decide (r = .nil) && !s.world.mgr.held ⟨ref, kind⟩
    ⟨w, staleAfter took kind k s.stale w.mgr.dirtySet⟩
  | .flush e =>
    let w := s.world.flushOnce e
    ⟨w, s.stale.filter (· ∈ w.mgr.dirtySet)⟩
  | .cleanup cutoff => ⟨{ s.world with db := s.world.db.cleanupCompletedReserveOps cutoff }, s.stale⟩

/-! ## What a recoverable run keeps to -/

/-- The checks of an operation pass. -/
def World.passes (w : World) (kind : ReserveOpType) (k : PositionKey) (amount : Decimal) (ref : UUID) : Bool :=
  !w.mgr.held ⟨ref, kind⟩ && decide (0 < amount) &&
    match w.mgr.positions k, toMicro amount with
    | some ps, some a => ((specOf kind).guard k ps a ref).isNone
    | _, _ => false

/-- No reserve, release, commit or consume fails after its log row was kept, and no credit after its
row update. -/
def World.Durable (w : World) (e : CallEnv) (kind : ReserveOpType) (k : PositionKey) (amount : Decimal) : Prop :=
  (kind = .reserve ∨ kind.completes = true → e.wal = .err ∨ e.wal = .ok ∧ e.queued = true) ∧
  (w.mgr.isLarge k.currency amount = true →
    (kind = .reserve → e.flush = .ok) ∧ (kind = .credit → e.flush ≠ .errKept))

/-- An uncommitted reserve has this reference, position and amount. -/
def World.Open (w : World) (k : PositionKey) (amount : Decimal) (ref : UUID) : Prop :=
  ∃ r ∈ w.db.uncommitted, r.reference = ref ∧ r.key = k ∧ toMicro r.amount = toMicro amount

/-- A reserve brings a new reference and an amount that survives the column, and what ends a
reservation names the reference, the position and the amount of one that is open. A credit stays in
the range of `toMicro`. -/
def World.Paired (w : World) (k : PositionKey) (amount : Decimal) (ref : UUID) : ReserveOpType → Prop
  | .reserve => (∀ r ∈ w.db.reserveOps, r.reference = ref → r.opType ≠ .reserve ∧ r.opType.completes = false) ∧
      toMicro (numeric8 amount) = toMicro amount
  | .release => w.Open k amount ref
  | .commit => w.Open k amount ref
  | .consume => w.Open k amount ref
  | .credit => ∀ ps ∈ w.mgr.positions k, ps.balanceMicro + micro amount ≤ maxMicroValue
  | .debit => True

/-- The condition on a step. The cleanup must not drop the row that ended a reservation
before the reserve itself. -/
def Recoverable (s : Tracked) : RecoveryStep → Prop
  | .op e kind k amount ref _ => s.world.Durable e kind k amount ∧
      (s.world.passes kind k amount ref = true → s.world.Paired k amount ref kind)
  | .flush _ => True
  | .cleanup cutoff => ∀ c ∈ s.world.db.reserveOps, c.opType.completes = true → c.createdAt < cutoff →
      ∀ r ∈ s.world.db.reserveOps, r.opType = .reserve → r.reference = c.reference → r.createdAt < cutoff

/-! ## Reserved amounts in the log -/

def reservedIn (ops : List OpRow) (k : PositionKey) : ℤ :=
  (ops.map fun r => if r.key = k then micro r.amount else 0).sum

variable {dirty : List PositionKey} {row : OpRow} {ps' : PositionState} {now : Time}

section Reserved

variable {ops ops' : List OpRow} {r : OpRow} {k : PositionKey}

@[simp] theorem reservedIn_cons : reservedIn (r :: ops) k =
    (if r.key = k then micro r.amount else 0) + reservedIn ops k := by
  simp [reservedIn]

theorem reservedIn_snoc : reservedIn (ops ++ [r]) k =
    reservedIn ops k + if r.key = k then micro r.amount else 0 := by
  simp [reservedIn]

theorem reservedIn_perm (h : ops.Perm ops') : reservedIn ops k = reservedIn ops' k :=
  (h.map _).sum_eq

theorem reservedIn_nonneg (h : ∀ r ∈ ops, 0 ≤ micro r.amount) : 0 ≤ reservedIn ops k := by
  apply sum_nonneg
  intro x hx
  obtain ⟨r, hr, rfl⟩ := mem_map.1 hx
  split
  · exact h r hr
  · exact le_rfl

theorem reservedIn_filter (hnd : (ops.map (·.reference)).Nodup) (hr : r ∈ ops) :
    reservedIn (ops.filter (·.reference ≠ r.reference)) k =
      reservedIn ops k - if r.key = k then micro r.amount else 0 := by
  induction ops with
  | nil => cases hr
  | cons x xs ih =>
    obtain ⟨hx, hxs⟩ := nodup_cons.1 hnd
    rcases mem_cons.1 hr with rfl | hr
    · -- the row itself: no other row has its reference
      have hall : xs.filter (·.reference ≠ r.reference) = xs := by
        rw [filter_eq_self]
        intro y hy
        have hne : y.reference ≠ r.reference := fun heq => hx (mem_map.2 ⟨y, hy, heq⟩)
        simpa using hne
      rw [filter_cons_of_neg (by simp), hall, reservedIn_cons]
      omega
    · have hne : x.reference ≠ r.reference := fun heq => hx (mem_map.2 ⟨r, hr, heq.symm⟩)
      rw [filter_cons_of_pos (by simpa using hne), reservedIn_cons, reservedIn_cons, ih hxs hr]
      omega

end Reserved

/-! ## The invariant -/

/-- The log against the reserved counters. -/
structure LogInv (m : Manager) (db : DB) : Prop where
  refs : (db.uncommitted.map (·.reference)).Nodup
  amounts : ∀ r ∈ db.uncommitted, 0 ≤ r.amount ∧ microInRange r.amount = true
  reserved : ∀ k ps, m.positions k = some ps → ps.reservedMicro = reservedIn db.uncommitted k

/-- The database holds what a restart needs. -/
structure RecInv (w : World) (stale : List PositionKey) : Prop where
  live : w.mgr.replaying = false
  table : TableInv w.mgr w.db stale
  log : LogInv w.mgr w.db
  covered : ∀ k ps, w.mgr.positions k = some ps → ps.Covered
  dirty : stale ⊆ w.mgr.dirtySet
  known : ∀ k ∈ stale, (w.mgr.positions k).isSome

section Step

variable {w w' : World} {e : CallEnv} {kind : ReserveOpType} {k : PositionKey} {amount : Decimal}
  {ref : UUID} {refType : String} {r : Result} {stale : List PositionKey} {m m' : Manager} {db db' : DB}
  {ps : PositionState} {a : ℤ}

theorem covered_apply (hcov : ps.Covered) (ha : 0 ≤ a) (hg : ps.Allows a kind)
    (hcredit : kind = .credit → ps.balanceMicro + a ≤ maxMicroValue) :
    ((specOf kind).effect.apply a ps).Covered := by
  obtain ⟨hl, hr, hc, hrange⟩ := hcov
  cases kind with
  | credit =>
    have hmax := hcredit rfl
    constructor <;>
      simp only [specOf_effect, Effect.apply_balance, Effect.apply_locked, Effect.apply_reserved] <;> omega
  | reserve | release | commit | consume | debit =>
    simp only [PositionState.Allows, PositionState.available] at hg
    constructor <;>
      simp only [specOf_effect, Effect.apply_balance, Effect.apply_locked, Effect.apply_reserved] <;> omega

theorem LogInv.congr (h : LogInv m db) (hm : m'.positions = m.positions)
    (hdb : db'.uncommitted = db.uncommitted) : LogInv m' db' := by
  refine ⟨by rw [hdb]; exact h.refs, by rw [hdb]; exact h.amounts, ?_⟩
  rw [hm, hdb]
  exact h.reserved

theorem LogInv.move {d : ℤ} (h : LogInv m db) (hps : m.positions k = some ps)
    (hm : m'.positions = update m.positions k (some ps'))
    (hps' : ps'.reservedMicro = ps.reservedMicro + d) (hrefs : (db'.uncommitted.map (·.reference)).Nodup)
    (hamounts : ∀ r ∈ db'.uncommitted, 0 ≤ r.amount ∧ microInRange r.amount = true)
    (hsum : ∀ k', reservedIn db'.uncommitted k' = reservedIn db.uncommitted k' + if k = k' then d else 0) :
    LogInv m' db' := by
  refine ⟨hrefs, hamounts, ?_⟩
  intro k' q hq
  rw [hsum]
  rcases Manager.position_update hm hq with ⟨rfl, rfl⟩ | ⟨hne, hq⟩
  · rw [hps', h.reserved k' ps hps, if_pos rfl]
  · rw [h.reserved k' q hq, if_neg hne.symm, add_zero]

theorem uncommitted_logged_other (row : OpRow) (hkind : row.opType ≠ .reserve)
    (hcomp : row.opType.completes = false) : (w.logged e row).uncommitted = w.db.uncommitted := by
  unfold World.logged
  split
  · exact uncommitted_insert_other hkind hcomp
  · rfl

theorem LogInv.reserve (h : LogInv w.mgr w.db) (hps : w.mgr.positions k = some ps)
    (hm : m'.positions = update w.mgr.positions k (some ps'))
    (hps' : ps'.reservedMicro = ps.reservedMicro + a) (hpos : 0 < amount) (ha : toMicro amount = some a)
    (hpair : w.Paired k amount ref .reserve) :
    LogInv m' (w.db.insertReserveOp ⟨k, amount, ref, .reserve, now⟩) := by
  obtain ⟨hnew, hstored⟩ := hpair
  have hmicro := hstored.trans ha
  -- no row of the log has ended this reference
  have hopen : w.db.completed ref = false := by
    rw [Bool.eq_false_iff]
    intro hcon
    obtain ⟨c, hc, href, hcomp⟩ := completed_iff.1 hcon
    rw [(hnew c hc href).2] at hcomp
    cases hcomp
  have hun : (w.db.insertReserveOp ⟨k, amount, ref, .reserve, now⟩).uncommitted =
      w.db.uncommitted ++ [⟨k, numeric8 amount, ref, .reserve, now⟩] := uncommitted_insert_reserve rfl hopen
  refine h.move hps hm hps' ?_ ?_ ?_
  · rw [hun, map_append, nodup_append]
    refine ⟨h.refs, by simp, ?_⟩
    intro x hx y hy hxy
    obtain ⟨r, hr, rfl⟩ := mem_map.1 hx
    obtain ⟨hr, hres, -⟩ := mem_uncommitted.1 hr
    have href : r.reference = ref := hxy.trans (by simpa using hy)
    exact (hnew r hr href).1 hres
  · rw [hun]
    exact forall_mem_snoc h.amounts ⟨roundPlaces_nonneg 8 hpos.le, microInRange_of_toMicro hmicro⟩
  · intro k'
    rw [hun, reservedIn_snoc]
    simp only [micro_eq hmicro]

theorem LogInv.complete (h : LogInv w.mgr w.db) (hps : w.mgr.positions k = some ps)
    (hm : m'.positions = update w.mgr.positions k (some ps'))
    (hps' : ps'.reservedMicro = ps.reservedMicro + -a) (ha : toMicro amount = some a)
    (hopen : w.Open k amount ref) (hcomp : kind.completes = true) :
    LogInv m' (w.db.insertReserveOp ⟨k, amount, ref, kind, now⟩) := by
  obtain ⟨r, hr, rfl, rfl, hamount⟩ := hopen
  have hmicro : micro r.amount = a := micro_eq (hamount.trans ha)
  have hun : (w.db.insertReserveOp ⟨r.key, amount, r.reference, kind, now⟩).uncommitted =
      w.db.uncommitted.filter (·.reference ≠ r.reference) := uncommitted_insert_completes hcomp
  refine h.move hps hm hps' ?_ ?_ ?_
  · rw [hun]
    exact h.refs.sublist (filter_sublist.map _)
  · rw [hun]
    exact fun r hr => h.amounts r (mem_of_mem_filter hr)
  · intro k'
    -- one row goes, because the references of the selection are distinct
    rw [hun, reservedIn_filter h.refs hr, hmicro]
    split <;> omega

/-- **The log follows an operation that takes effect.** -/
theorem LogInv.applied (h : LogInv w.mgr w.db) (hps : w.mgr.positions k = some ps) (hpos : 0 < amount)
    (ha : toMicro amount = some a)
    (hm : m'.positions = update w.mgr.positions k (some ((specOf kind).effect.apply a ps)))
    (hpair : w.Paired k amount ref kind) : LogInv m' (w.db.insertReserveOp ⟨k, amount, ref, kind, now⟩) := by
  cases kind with
  | reserve => exact h.reserve hps hm (by simp [specOf_effect]) hpos ha hpair
  | release | commit | consume =>
    exact h.complete hps hm (by simp [specOf_effect]) ha hpair rfl
  -- no reservation is touched, and the log row is not selected
  | credit | debit =>
    refine h.move hps hm (d := 0) (by simp [specOf_effect]) ?_ ?_ ?_ <;>
      rw [uncommitted_insert_other (by simp) rfl]
    · exact h.refs
    · exact h.amounts
    · simp

/-! ## One operation -/

theorem mem_staleAfter {took : Bool} {k' : PositionKey} :
    k' ∈ staleAfter took kind k stale dirty ↔
      (took = true ∧ kind.movesRow = true ∧ k' = k ∨ k' ∈ stale) ∧ k' ∈ dirty := by
  unfold staleAfter
  rw [mem_filter, mem_append, decide_eq_true_iff]
  by_cases hmoves : (took && kind.movesRow) = true
  · rw [if_pos hmoves, mem_singleton]
    rw [Bool.and_eq_true] at hmoves
    simp [hmoves]
  · rw [if_neg hmoves]
    rw [Bool.and_eq_true, not_and] at hmoves
    constructor
    · rintro ⟨hnil | hst, hd⟩
      · cases hnil
      · exact ⟨.inr hst, hd⟩
    · rintro ⟨⟨ht, hm, -⟩ | hst, hd⟩
      · exact absurd hm (hmoves ht)
      · exact ⟨.inr hst, hd⟩

theorem RecInv.idle (h : RecInv w stale) (hpos : w'.mgr.positions = w.mgr.positions)
    (hlive : w'.mgr.replaying = w.mgr.replaying) (hrows : w'.db.positions = w.db.positions)
    (hun : w'.db.uncommitted = w.db.uncommitted) (hdirty : w.mgr.dirtySet ⊆ w'.mgr.dirtySet) :
    RecInv w' (staleAfter false kind k stale w'.mgr.dirtySet) := by
  refine ⟨by rw [hlive]; exact h.live, ?_, h.log.congr hpos hun, by rw [hpos]; exact h.covered, ?_, ?_⟩
  · exact ((h.table.congr hpos).congr_rows hrows).mono fun k' hk' =>
      mem_staleAfter.2 ⟨.inr hk', hdirty (h.dirty hk')⟩
  · exact fun k' hk' => (mem_staleAfter.1 hk').2
  · intro k' hk'
    rw [hpos]
    rcases (mem_staleAfter.1 hk').1 with ⟨hfalse, -⟩ | hst
    · cases hfalse
    · exact h.known k' hst

theorem residue_db (hdur : w.Durable e kind k amount) (hkind : kind = .reserve ∨ kind.completes = true)
    (hres : Residue (specOf kind) w e k amount row db' dirty) : db' = w.db := by
  cases hres with
  | refused => rfl
  | unlogged hno =>
    -- the log failed before it kept the row
    rcases hdur.1 hkind with herr | hok
    · simp [World.logged, herr, StoreResult.kept]
    · exact absurd (.inr hok) hno
  | unflushed _ hroll hlarge hf =>
    -- of these only `Reserve` rolls back
    cases kind with
    | reserve => exact absurd ((hdur.2 hlarge).1 rfl) hf
    | credit => rcases hkind with hkind | hkind <;> cases hkind
    | release | commit | consume | debit => cases hroll

theorem residue_dirty (hres : Residue (specOf kind) w e k amount row db' dirty) : w.mgr.dirtySet ⊆ dirty := by
  cases hres with
  | refused => exact fun _ h => h
  | unlogged | unflushed => exact subset_markDirty _ _

theorem residue_idle (hdur : w.Durable e kind k amount) (hrow : row.opType = kind)
    (hres : Residue (specOf kind) w e k amount row db' dirty) :
    db'.positions = w.db.positions ∧ db'.uncommitted = w.db.uncommitted := by
  by_cases hkind : kind = .reserve ∨ kind.completes = true
  · rw [residue_db hdur hkind hres]
    exact ⟨rfl, rfl⟩
  rw [not_or, Bool.not_eq_true] at hkind
  have hlogged : (w.logged e row).positions = w.db.positions ∧ (w.logged e row).uncommitted = w.db.uncommitted :=
    ⟨logged_positions row, uncommitted_logged_other row (hrow ▸ hkind.1) (hrow ▸ hkind.2)⟩
  cases hres with
  | refused => exact ⟨rfl, rfl⟩
  | unlogged => exact hlogged
  | unflushed _ hroll hlarge hf =>
    -- a credit whose row update was not kept
    have hkept : e.flush.kept = false := by
      have hcredit : kind = .credit := by
        cases kind with
        | credit => rfl
        | reserve => exact absurd rfl hkind.1
        | release | commit | consume | debit => cases hroll
      cases hfl : e.flush with
      | ok => exact absurd hfl hf
      | err => rfl
      | errKept => exact absurd hfl ((hdur.2 hlarge).2 hcredit)
    simp only [DB.flushed, hkept, Bool.false_eq_true, if_false]
    exact hlogged

theorem movesRow_effect (h : kind.movesRow = false) :
    ((specOf kind).effect.apply a ps).balanceMicro = ps.balanceMicro ∧
    ((specOf kind).effect.apply a ps).lockedMicro = ps.lockedMicro := by
  cases kind with
  | reserve | release => simp [specOf_effect]
  | commit | consume | credit | debit => cases h

theorem persist_table (h : TableInv w.mgr db stale) (hsub : stale ⊆ w.mgr.dirtySet)
    (hps : w.mgr.positions k = some ps) (hm : m'.positions = update w.mgr.positions k (some ps'))
    (hid : ps'.id = ps.id) (hmin : ps'.minBalance = ps.minBalance) (hcov : ps'.Covered)
    (hsame : kind.movesRow = false → ps'.balanceMicro = ps.balanceMicro ∧ ps'.lockedMicro = ps.lockedMicro)
    (hper : Persist (specOf kind) w e k amount db ps' db' dirty) :
    TableInv m' db' (staleAfter true kind k stale dirty) := by
  have hps' : m'.positions k = some ps' := by rw [hm, update_self]
  -- while the position stays dirty, it is among the stale ones if its row has to change
  have hdeferred : TableInv m' db (staleAfter true kind k stale (w.mgr.markDirty k).dirtySet) := by
    refine h.set hps hm hid hmin ?_ fun k' hk' => ?_
    · cases hmoves : kind.movesRow with
      | true => exact .inl (mem_staleAfter.2 ⟨.inl ⟨rfl, hmoves, rfl⟩, mem_markDirty _ _⟩)
      | false => exact .inr (hsame hmoves)
    · exact mem_staleAfter.2 ⟨.inr hk', subset_markDirty _ _ (hsub hk')⟩
  cases hper with
  | deferred => exact hdeferred
  | flushed hlarge hf =>
    have hset : TableInv m' db (k :: stale) :=
      h.set hps hm hid hmin (.inl mem_cons_self) fun k' hk' => mem_cons_of_mem k hk'
    have hkept : e.flush.kept = true := by rw [hf]; rfl
    simp only [DB.flushed, hkept, if_true]
    refine hset.write hps' hcov fun k' hk' => ?_
    by_cases heq : k' = k
    · exact .inl heq
    · have hst : k' ∈ stale := (mem_cons.1 hk').resolve_left heq
      refine .inr (mem_staleAfter.2 ⟨.inr hst, mem_filter.2 ⟨?_, by simpa using heq⟩⟩)
      exact subset_markDirty _ _ (hsub hst)
  | unflushed =>
    unfold DB.flushed
    split
    · exact hdeferred.write hps' hcov fun k' hk' => .inr hk'
    · exact hdeferred

theorem persist_reserveOps (hper : Persist (specOf kind) w e k amount db ps' db' dirty) :
    db'.reserveOps = db.reserveOps := by
  have hflushed : (db.flushed e ps').reserveOps = db.reserveOps := by
    unfold DB.flushed
    split <;> rfl
  cases hper with
  | deferred => rfl
  | flushed | unflushed => exact hflushed

theorem logged_live (hlive : w.mgr.replaying = false) (hlog : LogOK w e) :
    w.logged e row = w.db.insertReserveOp row := by
  rcases hlog with hrep | ⟨hwal, -⟩
  · rw [hlive] at hrep; cases hrep
  · simp [World.logged, hlive, hwal, StoreResult.kept]

/-- **One operation keeps the database ready for a restart.** -/
theorem op_recInv (h : RecInv w stale) (hdur : w.Durable e kind k amount)
    (hpair : w.passes kind k amount ref = true → w.Paired k amount ref kind)
    (hout : Outcome (specOf kind) w e k amount ref w' r) :
    RecInv w' (staleAfter (decide (r = .nil) && !w.mgr.held ⟨ref, kind⟩) kind k stale w'.mgr.dirtySet) := by
  cases hout with
  | rejected | panicked => exact h.idle rfl rfl rfl rfl fun _ hd => hd
  | duplicate hheld =>
    rw [specOf_op] at hheld
    rw [hheld]
    exact h.idle rfl rfl rfl rfl fun _ hd => hd
  -- counters back, and nothing of the failure in what a restart reads
  | failed _ hpos _ hcfg hres =>
    obtain ⟨hrows, hun⟩ := residue_idle hdur (specOf_op kind) hres
    exact h.idle hpos hcfg.replaying hrows hun (residue_dirty hres)
  | @applied _ ps a hheld hlog hamount ha hps hg hpos _ hcfg hper =>
    rw [specOf_op] at hheld hper
    have hpaired := hpair (by simp [World.passes, hheld, hamount, hps, ha, hg])
    -- the position stays covered: by the guard, and for a credit by the condition
    have hcov : ((specOf kind).effect.apply a ps).Covered := by
      refine covered_apply (h.covered k ps hps) (toMicro_nonneg ha hamount) (guard_eq_none.1 hg) ?_
      rintro rfl
      have hle := hpaired ps hps
      rwa [micro_eq ha] at hle
    rw [logged_live h.live hlog] at hper
    have hrows : TableInv w.mgr (w.db.insertReserveOp ⟨k, amount, ref, kind, e.now⟩) stale :=
      h.table.congr_rows rfl
    have htable := persist_table hrows h.dirty hps hpos rfl rfl hcov movesRow_effect hper
    rw [hheld]
    refine ⟨by rw [hcfg.replaying]; exact h.live, htable, ?_, ?_, ?_, ?_⟩
    -- the flush of a large amount writes rows of the other table only
    · exact (h.log.applied hps hamount ha hpos hpaired).congr rfl (uncommitted_congr (persist_reserveOps hper))
    · intro k' q hq
      rcases Manager.position_update hpos hq with ⟨-, rfl⟩ | ⟨-, hq⟩
      · exact hcov
      · exact h.covered k' q hq
    · exact fun k' hk' => (mem_staleAfter.1 hk').2
    · intro k' hk'
      rw [hpos]
      by_cases heq : k' = k
      · subst heq; simp
      · rw [update_of_ne heq]
        rcases (mem_staleAfter.1 hk').1 with ⟨-, -, hk⟩ | hst
        · exact absurd hk heq
        · exact h.known k' hst

end Step

/-! ## A run -/

theorem flush_recInv {w : World} {stale : List PositionKey} (h : RecInv w stale) (e : FlushEnv) :
    RecInv (w.flushOnce e) (stale.filter (· ∈ (w.flushOnce e).mgr.dirtySet)) := by
  obtain ⟨hpos, -, hlive, hops, -⟩ := flushOnce_frame w e
  refine ⟨by rw [hlive]; exact h.live, ?_, h.log.congr hpos (uncommitted_congr hops),
    by rw [hpos]; exact h.covered, ?_, ?_⟩
  · exact flushOnce_table h.table h.covered h.known h.dirty
  · exact fun k hk => of_decide_eq_true (mem_filter.1 hk).2
  · intro k hk
    rw [hpos]
    exact h.known k (mem_of_mem_filter hk)

theorem cleanup_recInv {w : World} {stale : List PositionKey} (h : RecInv w stale) {cutoff : Time}
    (hold : ∀ c ∈ w.db.reserveOps, c.opType.completes = true → c.createdAt < cutoff →
      ∀ r ∈ w.db.reserveOps, r.opType = .reserve → r.reference = c.reference → r.createdAt < cutoff) :
    RecInv { w with db := w.db.cleanupCompletedReserveOps cutoff } stale :=
  ⟨h.live, h.table.congr_rows rfl, h.log.congr rfl (uncommitted_cleanup hold), h.covered, h.dirty, h.known⟩

theorem step_recInv {s : Tracked} {i : RecoveryStep} (h : RecInv s.world s.stale) (hok : Recoverable s i) :
    RecInv (s.step i).world (s.step i).stale := by
  cases i with
  | op e kind k amount ref refType => exact op_recInv h hok.1 hok.2 (exec_op rfl)
  | flush e => exact flush_recInv h e
  | cleanup cutoff => exact cleanup_recInv h hok

end Settla.Treasury
