import Settla.Proof.Accounting
import Settla.Treasury.Recovery

/-!
# What the database holds

The two tables against the manager, one fact for each way they change.
-/

namespace Settla.Treasury

open Lib List Function

/-! ## Micro-units survive the positions table -/

theorem numeric8_fromMicro (v : ℤ) : numeric8 (fromMicro v) = fromMicro v := by
  have hm : fromMicro v * 10 ^ 8 = ((v * 100 : ℤ) : ℚ) := by
    simp only [fromMicro, microScale]
    push_cast
    ring
  exact roundPlaces_eq hm

theorem toMicro_fromMicro {v : ℤ} (hlo : -maxMicroValue ≤ v) (hhi : v ≤ maxMicroValue) :
    toMicro (numeric8 (fromMicro v)) = some v := by
  have hscale : fromMicro v * (microScale : ℚ) = v := by
    simp only [fromMicro, microScale]
    push_cast
    ring
  have hin : microInRange (fromMicro v) = true := by
    have h₂ : (-maxMicroValue : ℚ) ≤ ((v : ℤ) : ℚ) := by exact_mod_cast hlo
    simp [microInRange, hscale, hhi, h₂]
  rw [numeric8_fromMicro, toMicro, if_pos hin, hscale, intPart_intCast]

/-! ## The positions table -/

def DB.rowAt (db : DB) (k : PositionKey) : Option PositionRow := db.positions.find? (·.key = k)

theorem rowAt_updatePosition (db : DB) (id : UUID) (b l : Decimal) (k : PositionKey) :
    (db.updatePosition id b l).rowAt k = (db.rowAt k).map fun r =>
      if r.id = id then { r with balance := numeric8 b, locked := numeric8 l } else r := by
  unfold DB.rowAt DB.updatePosition
  rw [List.find?_map]
  congr 2
  funext r
  simp only [comp]
  split <;> rfl

theorem map_updatePosition {β : Type} {f : PositionRow → β} (db : DB)
    (hf : ∀ r b l, f { r with balance := b, locked := l } = f r) (id : UUID) (b l : Decimal) :
    (db.updatePosition id b l).positions.map f = db.positions.map f := by
  unfold DB.updatePosition
  rw [map_map]
  congr 1
  funext r
  simp only [comp]
  split
  · exact hf r _ _
  · rfl

/-- The counters are in order and in the range of `toMicro`. -/
structure PositionState.Covered (ps : PositionState) : Prop where
  locked : 0 ≤ ps.lockedMicro
  reserved : 0 ≤ ps.reservedMicro
  covered : ps.lockedMicro + ps.reservedMicro ≤ ps.balanceMicro
  range : ps.balanceMicro ≤ maxMicroValue

def PositionRow.Loadable (row : PositionRow) : Prop :=
  ∃ b l, toMicro row.balance = some b ∧ toMicro row.locked = some l

/-- A row that holds the balance and the locked part of a position. -/
def PositionRow.Current (row : PositionRow) (ps : PositionState) : Prop :=
  toMicro row.balance = some ps.balanceMicro ∧ toMicro row.locked = some ps.lockedMicro

/-- The positions table against the positions in memory. -/
structure TableInv (m : Manager) (db : DB) (stale : List PositionKey) : Prop where
  /-- `UNIQUE (tenant_id, currency, location)` -/
  keys : (db.positions.map (·.key)).Nodup
  /-- the primary key -/
  ids : ∀ k k' ps ps', m.positions k = some ps → m.positions k' = some ps' → ps.id = ps'.id → k = k'
  absent : ∀ k, m.positions k = none → db.rowAt k = none
  row : ∀ k ps, m.positions k = some ps → ∃ row, db.rowAt k = some row ∧ row.id = ps.id ∧
    row.minBalance = ps.minBalance ∧ row.Loadable ∧ (k ∉ stale → row.Current ps)

namespace TableInv

variable {m m' : Manager} {db : DB} {stale stale' : List PositionKey} {k : PositionKey}
  {ps ps' : PositionState}

theorem mono (h : TableInv m db stale) (hsub : stale ⊆ stale') : TableInv m db stale' := by
  refine ⟨h.keys, h.ids, h.absent, ?_⟩
  intro k ps hps
  obtain ⟨row, hrow, hid, hmin, hload, hcur⟩ := h.row k ps hps
  exact ⟨row, hrow, hid, hmin, hload, fun hk => hcur fun hk' => hk (hsub hk')⟩

theorem write (h : TableInv m db stale) (hps : m.positions k = some ps) (hcov : ps.Covered)
    (hst : ∀ k', k' ∈ stale → k' = k ∨ k' ∈ stale') :
    TableInv m (db.updatePosition ps.id (fromMicro ps.balanceMicro) (fromMicro ps.lockedMicro)) stale' := by
  obtain ⟨hl, hr, hc, hrange⟩ := hcov
  have hmax : 0 ≤ maxMicroValue := by decide
  have hb : toMicro (numeric8 (fromMicro ps.balanceMicro)) = some ps.balanceMicro :=
    toMicro_fromMicro (by omega) hrange
  have hlk : toMicro (numeric8 (fromMicro ps.lockedMicro)) = some ps.lockedMicro :=
    toMicro_fromMicro (by omega) (by omega)
  refine ⟨by rw [map_updatePosition _ fun _ _ _ => rfl]; exact h.keys, h.ids, ?_, ?_⟩
  · intro k' hnone
    rw [rowAt_updatePosition, h.absent k' hnone]
    rfl
  · intro k' ps' hps'
    obtain ⟨row, hrow, hid, hmin, hload, hcur⟩ := h.row k' ps' hps'
    rw [rowAt_updatePosition, hrow, Option.map_some]
    refine ⟨_, rfl, ?_⟩
    by_cases hsame : row.id = ps.id
    · -- the row is the one that is written, so the position is `k`
      have hk : k' = k := h.ids k' k ps' ps hps' hps (hid.symm.trans hsame)
      subst hk
      rw [hps] at hps'
      cases hps'
      rw [if_pos hsame]
      exact ⟨hid, hmin, ⟨_, _, hb, hlk⟩, fun _ => ⟨hb, hlk⟩⟩
    · rw [if_neg hsame]
      refine ⟨hid, hmin, hload, fun hk' => hcur fun hmem => ?_⟩
      rcases hst k' hmem with heq | hmem'
      · subst heq
        rw [hps] at hps'
        cases hps'
        exact hsame hid
      · exact hk' hmem'

theorem set (h : TableInv m db stale) (hps : m.positions k = some ps)
    (hm : m'.positions = update m.positions k (some ps')) (hid : ps'.id = ps.id)
    (hmin : ps'.minBalance = ps.minBalance)
    (hk : k ∈ stale' ∨ ps'.balanceMicro = ps.balanceMicro ∧ ps'.lockedMicro = ps.lockedMicro)
    (hst : stale ⊆ stale') : TableInv m' db stale' := by
  -- every position after the change has one before it with the same ID and alert level
  have hpos : ∀ k' q, m'.positions k' = some q →
      ∃ p, m.positions k' = some p ∧ p.id = q.id ∧ p.minBalance = q.minBalance ∧
        (k' ∈ stale' ∨ q.balanceMicro = p.balanceMicro ∧ q.lockedMicro = p.lockedMicro) := by
    intro k' q hq
    rcases Manager.position_update hm hq with ⟨rfl, rfl⟩ | ⟨-, hq⟩
    · exact ⟨ps, hps, hid.symm, hmin.symm, hk⟩
    · exact ⟨q, hq, rfl, rfl, .inr ⟨rfl, rfl⟩⟩
  refine ⟨h.keys, ?_, ?_, ?_⟩
  · intro k₁ k₂ q₁ q₂ h₁ h₂ hq
    obtain ⟨p₁, hp₁, hi₁, -⟩ := hpos k₁ q₁ h₁
    obtain ⟨p₂, hp₂, hi₂, -⟩ := hpos k₂ q₂ h₂
    exact h.ids k₁ k₂ p₁ p₂ hp₁ hp₂ (by rw [hi₁, hi₂, hq])
  · intro k' hnone
    apply h.absent
    rw [hm] at hnone
    by_cases heq : k' = k
    · subst heq; simp at hnone
    · rwa [update_of_ne heq] at hnone
  · intro k' q hq
    obtain ⟨p, hp, hi, hmn, hcase⟩ := hpos k' q hq
    obtain ⟨row, hrow, hrid, hrmin, hload, hcur⟩ := h.row k' p hp
    refine ⟨row, hrow, hrid.trans hi, hrmin.trans hmn, hload, fun hk' => ?_⟩
    rcases hcase with hmem | ⟨hb, hl⟩
    · exact absurd hmem hk'
    · obtain ⟨hrb, hrl⟩ := hcur fun hmem => hk' (hst hmem)
      exact ⟨by rw [hb]; exact hrb, by rw [hl]; exact hrl⟩

theorem congr (h : TableInv m db stale) (hm : m'.positions = m.positions) : TableInv m' db stale := by
  refine ⟨h.keys, ?_, ?_, ?_⟩
  · rw [hm]; exact h.ids
  · rw [hm]; exact h.absent
  · rw [hm]; exact h.row

theorem congr_rows {db' : DB} (h : TableInv m db stale) (hdb : db'.positions = db.positions) :
    TableInv m db' stale := by
  have hrow : ∀ k, db'.rowAt k = db.rowAt k := fun k => by rw [DB.rowAt, hdb, DB.rowAt]
  refine ⟨by rw [hdb]; exact h.keys, h.ids, ?_, ?_⟩
  · intro k hk
    rw [hrow]; exact h.absent k hk
  · intro k ps hps
    rw [hrow]; exact h.row k ps hps

end TableInv

/-! ## A flush -/

section Flush

variable {m : Manager} {w : World} {stale stale' : List PositionKey}

theorem mem_dirtyPositions {order : List PositionKey} {k : PositionKey} :
    k ∈ m.dirtyPositions order ↔ k ∈ m.dirtySet := by
  simp only [Manager.dirtyPositions, mem_append, mem_dedup, mem_filter, decide_eq_true_eq]
  tauto

variable {u : PositionUpdate} {dirty : List PositionKey} {r : StoreResult}

theorem positionUpdate_key {k : PositionKey} (h : m.positionUpdate k = some u) : u.key = k := by
  obtain ⟨ps, -, rfl⟩ := Option.map_eq_some_iff.1 h
  rfl

theorem mem_updates (h : u ∈ dirty.filterMap m.positionUpdate) : m.positionUpdate u.key = some u := by
  obtain ⟨k, -, hk⟩ := mem_filterMap.1 h
  rw [positionUpdate_key hk]
  exact hk

theorem key_mem_updates {k : PositionKey} (h : k ∈ dirty)
    (hps : (m.positions k).isSome) : k ∈ (dirty.filterMap m.positionUpdate).map (·.key) := by
  obtain ⟨ps, hps⟩ := Option.isSome_iff_exists.1 hps
  have hu : m.positionUpdate k = some ⟨k, ps.id, fromMicro ps.balanceMicro, fromMicro ps.lockedMicro⟩ := by
    rw [Manager.positionUpdate, hps, Option.map_some]
  exact mem_map.2 ⟨_, mem_filterMap.2 ⟨k, h, hu⟩, rfl⟩

variable {db : DB} {us : List PositionUpdate} {rs : List StoreResult}

theorem TableInv.write_update (h : TableInv m db stale) (hcov : ∀ k ps, m.positions k = some ps → ps.Covered)
    (hu : m.positionUpdate u.key = some u) (hst : ∀ k, k ∈ stale → k ∈ stale' ∨ k = u.key ∧ r.kept = true) :
    TableInv m (db.write u r) stale' := by
  unfold DB.write
  split
  · unfold Manager.positionUpdate at hu
    obtain ⟨ps, hps, hu⟩ := Option.map_eq_some_iff.1 hu
    have hid : u.id = ps.id := by rw [← hu]
    have hb : u.balance = fromMicro ps.balanceMicro := by rw [← hu]
    have hl : u.locked = fromMicro ps.lockedMicro := by rw [← hu]
    rw [hid, hb, hl]
    exact h.write hps (hcov _ _ hps) fun k hk => (hst k hk).symm.imp_left And.left
  · rename_i hr
    refine h.mono fun k hk => ?_
    rcases hst k hk with hmem | ⟨-, hkept⟩
    · exact hmem
    · exact absurd hkept hr

theorem headD_ok (h : ∀ r ∈ rs, r = .ok) : rs.headD .ok = .ok := by
  cases rs with
  | nil => rfl
  | cons r rs => exact h r mem_cons_self

section Induct

variable {Q : PositionUpdate → Prop} {P : DB → List PositionUpdate → Prop} {acked : List PositionUpdate}
  (hwrite : ∀ db acked u r, Q u → P db acked → P (db.write u r) (if r = .ok then u :: acked else acked))
  (hus : ∀ u ∈ us, Q u)

include hwrite hus

theorem batchUpdate_induct (hstart : P db acked) (rs : List StoreResult) :
    ∃ acked', P (db.batchUpdatePositions us rs).1 acked' ∧ acked ⊆ acked' ∧
      ((db.batchUpdatePositions us rs).2 = true → us ⊆ acked') ∧
      ((∀ r ∈ rs, r = .ok) → (db.batchUpdatePositions us rs).2 = true) := by
  induction us generalizing db acked rs with
  | nil => exact ⟨acked, hstart, Subset.refl _, fun _ => nil_subset _, fun _ => rfl⟩
  | cons u us ih =>
    obtain ⟨hu, hus⟩ := forall_mem_cons.1 hus
    have hfirst := hwrite db acked u (rs.headD .ok) hu hstart
    simp only [DB.batchUpdatePositions]
    by_cases hr : rs.headD .ok = .ok
    · rw [if_pos hr] at hfirst ⊢
      obtain ⟨acked', hP, hsub, hall, hnone⟩ := ih hus hfirst rs.tail
      obtain ⟨hmem, hsub⟩ := cons_subset.1 hsub
      exact ⟨acked', hP, hsub, fun h => cons_subset.2 ⟨hmem, hall h⟩, fun h => hnone fun r hr => h r (mem_of_mem_tail hr)⟩
    -- the batch stops at the first error
    · rw [if_neg hr] at hfirst ⊢
      exact ⟨acked, hfirst, Subset.refl _, nofun, fun h => absurd (headD_ok h) hr⟩

theorem flushIndividual_induct (hstart : P db acked) (rs : List StoreResult) :
    ∃ acked', P (db.flushIndividual us rs).1 acked' ∧ acked ⊆ acked' ∧ (db.flushIndividual us rs).2 ⊆ us ∧
      (∀ u ∈ us, u ∈ (db.flushIndividual us rs).2 ∨ u ∈ acked') ∧
      ((∀ r ∈ rs, r = .ok) → (db.flushIndividual us rs).2 = []) := by
  induction us generalizing db acked rs with
  | nil => exact ⟨acked, hstart, Subset.refl _, Subset.refl _, nofun, fun _ => rfl⟩
  | cons u us ih =>
    obtain ⟨hu, hus⟩ := forall_mem_cons.1 hus
    obtain ⟨acked', hP, hsub, hin, hall, hnone⟩ := ih hus (hwrite db acked u (rs.headD .ok) hu hstart) rs.tail
    simp only [DB.flushIndividual]
    by_cases hr : rs.headD .ok = .ok
    · rw [if_pos hr] at hsub ⊢
      obtain ⟨hmem, hsub⟩ := cons_subset.1 hsub
      exact ⟨acked', hP, hsub, subset_cons_of_subset u hin, forall_mem_cons.2 ⟨.inr hmem, hall⟩,
        fun h => hnone fun r hr => h r (mem_of_mem_tail hr)⟩
    · rw [if_neg hr] at hsub ⊢
      refine ⟨acked', hP, hsub, cons_subset_cons u hin, ?_, fun h => absurd (headD_ok h) hr⟩
      exact forall_mem_cons.2 ⟨.inl mem_cons_self, fun v hv => (hall v hv).imp_left (mem_cons_of_mem _)⟩

/-- **What a flush does**: it makes row updates one after another. All that are not to be retried
have been acknowledged, and there are none to be retried if the store never fails. -/
theorem flushDirty_induct (hstart : P db []) (e : FlushEnv) :
    ∃ acked, P (db.flushDirtyPositions us e).1 acked ∧ (db.flushDirtyPositions us e).2 ⊆ us ∧
      (∀ u ∈ us, u ∈ (db.flushDirtyPositions us e).2 ∨ u ∈ acked) ∧
      ((∀ r ∈ e.results, r = .ok) → (db.flushDirtyPositions us e).2 = []) := by
  unfold DB.flushDirtyPositions DB.flushBatch
  split
  · obtain ⟨acked, hP, -, hall, hnone⟩ := batchUpdate_induct hwrite hus hstart e.results
    rcases hrun : db.batchUpdatePositions us e.results with ⟨db', ok⟩
    rw [hrun] at hP hall hnone
    cases ok with
    | true => exact ⟨acked, hP, nil_subset us, fun u hu => .inr (hall rfl hu), fun _ => rfl⟩
    | false => exact ⟨acked, hP, Subset.refl _, fun u hu => .inl hu, fun h => nomatch hnone h⟩
  · obtain ⟨acked, hP, -, hrest⟩ := flushIndividual_induct hwrite hus hstart e.results
    exact ⟨acked, hP, hrest⟩

end Induct

variable {e : FlushEnv}

theorem flushDirty_frame (db : DB) (us : List PositionUpdate) (e : FlushEnv) :
    (db.flushDirtyPositions us e).1.reserveOps = db.reserveOps ∧ (db.flushDirtyPositions us e).2 ⊆ us ∧
      ((∀ r ∈ e.results, r = .ok) → (db.flushDirtyPositions us e).2 = []) := by
  obtain ⟨-, hops, hsub, -, hnone⟩ := flushDirty_induct (P := fun db' _ => db'.reserveOps = db.reserveOps)
    (fun db' _ u r _ h => by unfold DB.write; split <;> exact h) (fun u (hu : u ∈ us) => hu) rfl e
  exact ⟨hops, hsub, hnone⟩

theorem flushDirty_table (h : TableInv m db stale)
    (hcov : ∀ k ps, m.positions k = some ps → ps.Covered)
    (hus : ∀ u ∈ us, m.positionUpdate u.key = some u)
    (hst : ∀ k ∈ stale, k ∈ stale' ∨
      k ∈ us.map (·.key) ∧ k ∉ (db.flushDirtyPositions us e).2.map (·.key)) :
    TableInv m (db.flushDirtyPositions us e).1 stale' := by
  -- what has been acknowledged is no longer stale
  have hwrite : ∀ db acked u r, m.positionUpdate u.key = some u →
      TableInv m db (stale.filter (· ∉ acked.map PositionUpdate.key)) →
      TableInv m (db.write u r) (stale.filter (· ∉ (if r = .ok then u :: acked else acked).map PositionUpdate.key)) := by
    intro db acked u r hu htab
    refine htab.write_update hcov hu fun k hk => ?_
    split
    · rename_i hr
      by_cases heq : k = u.key
      · exact .inr ⟨heq, by rw [hr]; rfl⟩
      · simp only [mem_filter, decide_eq_true_eq] at hk ⊢
        exact .inl ⟨hk.1, not_mem_cons_of_ne_of_not_mem heq hk.2⟩
    · exact .inl hk
  obtain ⟨acked, htable, -, hleft, -⟩ := flushDirty_induct hwrite hus (by simpa using h) e
  refine htable.mono fun k hk => ?_
  obtain ⟨hk, hno⟩ := mem_filter.1 hk
  refine (hst k hk).resolve_right ?_
  rintro ⟨hin, hout⟩
  obtain ⟨u, hu, rfl⟩ := mem_map.1 hin
  have hacked := (hleft u hu).resolve_left fun hfail => hout (mem_map_of_mem hfail)
  exact of_decide_eq_true hno (mem_map_of_mem hacked)

theorem flushOnce_frame (w : World) (e : FlushEnv) :
    (w.flushOnce e).mgr.positions = w.mgr.positions ∧
    (w.flushOnce e).mgr.idempotencyShards = w.mgr.idempotencyShards ∧
    (w.flushOnce e).mgr.replaying = w.mgr.replaying ∧
    (w.flushOnce e).db.reserveOps = w.db.reserveOps ∧ (w.flushOnce e).mgr.dirtySet ⊆ w.mgr.dirtySet := by
  unfold World.flushOnce
  dsimp only
  split
  · exact ⟨rfl, rfl, rfl, rfl, fun _ h => h⟩
  · obtain ⟨hops, hsub, -⟩ := flushDirty_frame w.db
      ((w.mgr.dirtyPositions e.order).filterMap w.mgr.positionUpdate) e
    refine ⟨rfl, rfl, rfl, hops, fun k hk => ?_⟩
    obtain ⟨u, hu, rfl⟩ := mem_map.1 hk
    obtain ⟨k, hmem, hk⟩ := mem_filterMap.1 (hsub hu)
    rw [positionUpdate_key hk]
    exact mem_dirtyPositions.1 hmem

/-- **A flush freshens every position it takes off the dirty set.** -/
theorem flushOnce_table (h : TableInv w.mgr w.db stale)
    (hcov : ∀ k ps, w.mgr.positions k = some ps → ps.Covered)
    (hknown : ∀ k ∈ stale, (w.mgr.positions k).isSome) (hsub : stale ⊆ w.mgr.dirtySet) :
    TableInv (w.flushOnce e).mgr (w.flushOnce e).db
      (stale.filter (· ∈ (w.flushOnce e).mgr.dirtySet)) := by
  unfold World.flushOnce
  dsimp only
  split
  · exact h.mono fun k hk => mem_filter.2 ⟨hk, by simpa using hsub hk⟩
  · refine (flushDirty_table h hcov (fun u hu => mem_updates hu) fun k hk => ?_).congr rfl
    have hin : k ∈ w.mgr.dirtyPositions e.order := mem_dirtyPositions.2 (hsub hk)
    -- what the flush reports goes back to the dirty set
    by_cases hfail : k ∈ (w.db.flushDirtyPositions
        ((w.mgr.dirtyPositions e.order).filterMap w.mgr.positionUpdate) e).2.map (·.key)
    · exact .inl (mem_filter.2 ⟨hk, decide_eq_true hfail⟩)
    · exact .inr ⟨key_mem_updates hin (hknown k hk), hfail⟩

end Flush

/-! ## The log -/

section Log

variable {db : DB} {row : OpRow} {ref : UUID}

theorem completed_iff : db.completed ref = true ↔
    ∃ c ∈ db.reserveOps, c.reference = ref ∧ c.opType.completes = true := by
  simp [DB.completed]

theorem mem_uncommitted {r : OpRow} : r ∈ db.uncommitted ↔
    r ∈ db.reserveOps ∧ r.opType = .reserve ∧ db.completed r.reference = false := by
  simp [DB.uncommitted]

theorem uncommitted_congr {db' : DB} (h : db'.reserveOps = db.reserveOps) :
    db'.uncommitted = db.uncommitted := by
  unfold DB.uncommitted DB.completed
  rw [h]

theorem getUncommittedOps_perm (db : DB) : db.getUncommittedOps.Perm db.uncommitted :=
  perm_insertionSort _ _

def OpRow.stored (row : OpRow) : OpRow := { row with amount := numeric8 row.amount }

theorem mem_insertReserveOp {r : OpRow} :
    r ∈ (db.insertReserveOp row).reserveOps ↔ r ∈ db.reserveOps ∨ r = row.stored := by
  simp [DB.insertReserveOp, OpRow.stored]

theorem completed_insert : (db.insertReserveOp row).completed ref =
    (db.completed ref || decide (row.reference = ref) && row.opType.completes) := by
  simp [DB.completed, DB.insertReserveOp]

theorem completed_insert_open (hopen : row.opType.completes = false) :
    (db.insertReserveOp row).completed ref = db.completed ref := by
  rw [completed_insert, hopen, Bool.and_false, Bool.or_false]

theorem uncommitted_insert_other (hkind : row.opType ≠ .reserve) (hcomp : row.opType.completes = false) :
    (db.insertReserveOp row).uncommitted = db.uncommitted := by
  unfold DB.uncommitted
  simp only [completed_insert_open hcomp]
  simp [DB.insertReserveOp, hkind]

theorem uncommitted_insert_reserve (hkind : row.opType = .reserve)
    (hnew : db.completed row.reference = false) :
    (db.insertReserveOp row).uncommitted = db.uncommitted ++ [row.stored] := by
  have hopen : row.opType.completes = false := by rw [hkind]; rfl
  unfold DB.uncommitted
  simp only [completed_insert_open hopen]
  simp [DB.insertReserveOp, hkind, hnew, OpRow.stored]

theorem uncommitted_insert_completes (hcomp : row.opType.completes = true) :
    (db.insertReserveOp row).uncommitted = db.uncommitted.filter (·.reference ≠ row.reference) := by
  have hkind : row.opType ≠ .reserve := by
    intro hres
    rw [hres] at hcomp
    cases hcomp
  unfold DB.uncommitted
  rw [filter_filter]
  simp only [completed_insert, hcomp, Bool.and_true]
  simp only [DB.insertReserveOp, filter_append]
  simp only [hkind, filter_cons, filter_nil, decide_false, Bool.false_and, Bool.false_eq_true,
    if_false, append_nil]
  congr 1
  -- the new row ends exactly the reserves with its reference
  funext r
  by_cases heq : row.reference = r.reference
  · simp [heq]
  · simp [heq, Ne.symm heq]

/-- **The cleanup drops no uncommitted reserve and uncovers no finished one**, if no reserve
outlives the row that ends it. -/
theorem uncommitted_cleanup {cutoff : Time}
    (h : ∀ c ∈ db.reserveOps, c.opType.completes = true → c.createdAt < cutoff →
      ∀ r ∈ db.reserveOps, r.opType = .reserve → r.reference = c.reference → r.createdAt < cutoff) :
    (db.cleanupCompletedReserveOps cutoff).uncommitted = db.uncommitted := by
  unfold DB.uncommitted
  conv_lhs => enter [2]; rw [DB.cleanupCompletedReserveOps]
  rw [filter_filter]
  apply filter_congr
  intro r hr
  by_cases hkind : r.opType = .reserve
  · cases hc : db.completed r.reference with
    | false =>
      -- not finished: kept, and the cleanup adds no row
      have hc' : (db.cleanupCompletedReserveOps cutoff).completed r.reference = false := by
        rw [Bool.eq_false_iff]
        intro hcon
        obtain ⟨c, hmem, hcond⟩ := completed_iff.1 hcon
        have := completed_iff.2 ⟨c, mem_of_mem_filter hmem, hcond⟩
        rw [hc] at this
        cases this
      simp [hkind, hc', ReserveOpType.completes]
    | true =>
      by_cases hold : r.createdAt < cutoff
      · simp [hold]
      · -- finished and young: the row that ended it is young too
        obtain ⟨c, hmem, href, hcomp⟩ := completed_iff.1 hc
        have hyoung : ¬ c.createdAt < cutoff := fun hlt => hold (h c hmem hcomp hlt r hr hkind href.symm)
        have hkept : c ∈ (db.cleanupCompletedReserveOps cutoff).reserveOps :=
          mem_filter.2 ⟨hmem, by simp [hyoung]⟩
        have hc' := completed_iff.2 ⟨c, hkept, href, hcomp⟩
        simp [hc']
  · simp [hkind]

end Log

end Settla.Treasury
