import Settla.Proof.Storage

/-!
# Where the balance of a position is kept

A balance is in memory and in its row. Operations that do not move it, flushes and restarts
copy it from one to the other and change neither.
-/

namespace Settla.Treasury

open List Function

def DB.identities (db : DB) : List (PositionKey × UUID) := db.positions.map fun r => (r.key, r.id)

/-- Every position in memory has its row, and rows have different keys and IDs. -/
structure Linked (m : Manager) (db : DB) : Prop where
  keys : (db.identities.map Prod.fst).Nodup
  ids : (db.identities.map Prod.snd).Nodup
  row : ∀ k ps, m.positions k = some ps → (k, ps.id) ∈ db.identities

/-- The rows of a position are as before, or hold the balance `v` that memory has. -/
structure Drift (k : PositionKey) (v : Option ℤ) (db db' : DB) : Prop where
  identities : db'.identities = db.identities
  rows : ∀ row' ∈ db'.positions, row'.key = k →
    (∃ row ∈ db.positions, row.key = k ∧ row.balance = row'.balance) ∨
      ∃ b, v = some b ∧ row'.balance = numeric8 (fromMicro b)

variable {m m' : Manager} {db db' db'' : DB} {k k' : PositionKey} {ps ps' : PositionState} {v : Option ℤ}

theorem Linked.congr (h : Linked m db) (hdb : db'.identities = db.identities)
    (hm : ∀ k ps', m'.positions k = some ps' → ∃ ps, m.positions k = some ps ∧ ps'.id = ps.id) : Linked m' db' := by
  refine ⟨hdb ▸ h.keys, hdb ▸ h.ids, fun k ps' hps' => ?_⟩
  obtain ⟨ps, hps, hid⟩ := hm k ps' hps'
  rw [hdb, hid]
  exact h.row k ps hps

theorem Linked.rows (h : Linked m db) (hdb : db'.identities = db.identities) : Linked m db' :=
  h.congr hdb fun _ ps hps => ⟨ps, hps, rfl⟩

theorem Linked.memory (h : Linked m db) (hm : m'.positions = m.positions) : Linked m' db :=
  h.congr rfl fun _ ps hps => ⟨ps, hm ▸ hps, rfl⟩

theorem balanceAt_congr (hm : m'.positions = m.positions) : m'.balanceAt k = m.balanceAt k := by
  rw [Manager.balanceAt, hm, Manager.balanceAt]

theorem Drift.of_positions (h : db'.positions = db.positions) : Drift k v db db' := by
  refine ⟨by rw [DB.identities, h, DB.identities], fun row' hrow' hk => .inl ⟨row', h ▸ hrow', hk, rfl⟩⟩

theorem Drift.refl (db : DB) : Drift k v db db := .of_positions rfl

theorem Drift.trans (h : Drift k v db db') (h' : Drift k v db' db'') : Drift k v db db'' := by
  refine ⟨h'.identities.trans h.identities, fun row'' hrow'' hk => ?_⟩
  rcases h'.rows row'' hrow'' hk with ⟨row', hrow', hk', hsame⟩ | hmem
  · rw [← hsame]
    exact h.rows row' hrow' hk'
  · exact .inr hmem

theorem Linked.key_eq (h : Linked m db) (hps : m.positions k = some ps) {row : PositionRow} (hrow : row ∈ db.positions)
    (hid : row.id = ps.id) : row.key = k := by
  have hmine := h.row k ps hps
  have htheirs : (row.key, row.id) ∈ db.identities := mem_map.2 ⟨row, hrow, rfl⟩
  have hsame := inj_on_of_nodup_map h.ids htheirs hmine hid
  exact congrArg Prod.fst hsame

theorem Linked.row_eq (h : Linked m db) {row row' : PositionRow} (hrow : row ∈ db.positions) (hrow' : row' ∈ db.positions)
    (hk : row.key = row'.key) : row = row' := by
  have hkeys : (db.positions.map (·.key)).Nodup := by
    have hnodup := h.keys
    rw [DB.identities, map_map] at hnodup
    exact hnodup
  exact inj_on_of_nodup_map hkeys hrow hrow' hk

theorem drift_write (h : Linked m db) (hps : m.positions k' = some ps) (b : ℤ) (l : Decimal)
    (hb : k' = k → v = some b) : Drift k v db (db.updatePosition ps.id (fromMicro b) l) := by
  refine ⟨map_updatePosition _ (fun _ _ _ => rfl) _ _ _, fun row' hrow' hk => ?_⟩
  obtain ⟨row, hrow, rfl⟩ := mem_map.1 hrow'
  by_cases hid : row.id = ps.id
  · simp only [hid, if_true] at hk ⊢
    exact .inr ⟨b, hb ((h.key_eq hps hrow hid).symm.trans hk), rfl⟩
  · simp only [hid, if_false] at hk ⊢
    exact .inl ⟨row, hrow, hk, rfl⟩

/-! ## Operations -/

section Operations

variable {w w' : World} {e : CallEnv} {amount : Decimal} {ref : UUID} {r : Result} {kind : ReserveOpType} {a : ℤ}
  {row : OpRow} {dirty : List PositionKey}

theorem drift_logged (row : OpRow) : Drift k v w.db (w.logged e row) := by
  unfold World.logged
  split <;> exact .of_positions rfl

theorem drift_flushed (h : Linked m db) (hps : m.positions k' = some ps) (hid : ps'.id = ps.id)
    (hb : k' = k → v = some ps'.balanceMicro) : Drift k v db (db.flushed e ps') := by
  unfold DB.flushed
  split
  · rw [hid]
    exact drift_write h hps _ _ hb
  · exact .refl db

theorem linked_update (h : Linked m db) (hm : m'.positions = update m.positions k (some ps'))
    (hps : m.positions k = some ps) (hid : ps'.id = ps.id) : Linked m' db := by
  refine h.congr rfl fun k' q hq => ?_
  rcases Manager.position_update hm hq with ⟨rfl, rfl⟩ | ⟨-, hq⟩
  · exact ⟨ps, hps, hid⟩
  · exact ⟨q, hq, rfl⟩

/-- **An operation that takes effect** writes at most what memory has by then. -/
theorem persist_drift (h : Linked w.mgr w.db) (hps : w.mgr.positions k' = some ps)
    (hm : m'.positions = update w.mgr.positions k' (some ((specOf kind).effect.apply a ps)))
    (hper : Persist (specOf kind) w e k' amount (w.logged e row) ((specOf kind).effect.apply a ps) db' dirty) :
    Linked m' db' ∧ Drift k (m'.balanceAt k) w.db db' := by
  have hlogged : Drift k (m'.balanceAt k) w.db (w.logged e row) := drift_logged row
  have hlinked : Linked m' (w.logged e row) := (linked_update h hm hps rfl).rows hlogged.identities
  have hps' : m'.positions k' = some ((specOf kind).effect.apply a ps) := by rw [hm, update_self]
  have hflushed : Drift k (m'.balanceAt k) w.db ((w.logged e row).flushed e ((specOf kind).effect.apply a ps)) := by
    refine hlogged.trans (drift_flushed hlinked hps' rfl ?_)
    rintro rfl
    rw [Manager.balanceAt, hps']
    rfl
  cases hper with
  | deferred => exact ⟨hlinked, hlogged⟩
  | flushed | unflushed => exact ⟨hlinked.rows (hflushed.identities.trans hlogged.identities.symm), hflushed⟩

/-- **An operation that fails** writes what it would have made of the position, if at all. -/
theorem residue_drift (h : Linked w.mgr w.db)
    (hquiet : ∀ ps a, k' = k → e.flush = .errKept → w.mgr.isLarge k'.currency amount = true →
      ((specOf kind).effect.apply a ps).balanceMicro = ps.balanceMicro)
    (hres : Residue (specOf kind) w e k' amount row db' dirty) : Drift k (w.mgr.balanceAt k) w.db db' := by
  cases hres with
  | refused _ => exact .refl _
  | unlogged _ => exact drift_logged _
  | @unflushed ps a _ _ hlarge hflush hps _ =>
    have hlogged : Drift k (w.mgr.balanceAt k) w.db (w.logged e row) := drift_logged row
    refine hlogged.trans ?_
    cases hcase : e.flush with
    | ok => exact absurd hcase hflush
    | err =>
      rw [DB.flushed, hcase]
      exact .refl _
    | errKept =>
      refine drift_flushed (h.rows hlogged.identities) hps rfl ?_
      rintro rfl
      rw [Manager.balanceAt, hps, Option.map_some, hquiet ps a rfl hcase hlarge]

/-- **An operation that does not move the balance of `k`**: it is on another position, or on
the other counters. -/
theorem op_drift (h : Linked w.mgr w.db) (hout : Outcome (specOf kind) w e k' amount ref w' r)
    (hquiet : k' ≠ k ∨ (specOf kind).effect.balance = 0) :
    Linked w'.mgr w'.db ∧ Drift k (w.mgr.balanceAt k) w.db w'.db ∧ w'.mgr.balanceAt k = w.mgr.balanceAt k := by
  have hsame : ∀ ps a, k' = k → ((specOf kind).effect.apply a ps).balanceMicro = ps.balanceMicro := by
    intro ps a hk
    rcases hquiet with hne | hzero
    · exact absurd hk hne
    · simp [Effect.apply, hzero]
  cases hout with
  | rejected _ | duplicate _ => exact ⟨h, .refl _, rfl⟩
  | panicked _ _ _ => exact ⟨h.memory rfl, .refl _, rfl⟩
  | failed _ hpos _ _ hres =>
    have hdrift := residue_drift (k := k) h (fun ps a hk _ _ => hsame ps a hk) hres
    exact ⟨(h.memory hpos).rows hdrift.identities, hdrift, balanceAt_congr hpos⟩
  | @applied _ ps a _ _ _ _ hps _ hpos _ _ hper =>
    obtain ⟨hlinked, hdrift⟩ := persist_drift (k := k) h hps hpos hper
    have hbalance : w'.mgr.balanceAt k = w.mgr.balanceAt k := by
      unfold Manager.balanceAt
      rw [hpos]
      by_cases hk : k = k'
      · subst hk
        rw [update_self, hps, Option.map_some, hsame ps a rfl, Option.map_some]
      · rw [update_of_ne hk]
    exact ⟨hlinked, hbalance ▸ hdrift, hbalance⟩

theorem exec_drift (h : Linked w.mgr w.db) (e : CallEnv) (k' : PositionKey) (amount : Decimal) (ref : UUID)
    (refType : String) (hquiet : k' ≠ k ∨ (specOf kind).effect.balance = 0) :
    Linked (w.exec e (.op kind k' amount ref refType)).1.mgr (w.exec e (.op kind k' amount ref refType)).1.db ∧
      Drift k (w.mgr.balanceAt k) w.db (w.exec e (.op kind k' amount ref refType)).1.db ∧
      (w.exec e (.op kind k' amount ref refType)).1.mgr.balanceAt k = w.mgr.balanceAt k := by
  rcases hexec : w.exec e (.op kind k' amount ref refType) with ⟨w', r⟩
  exact op_drift h (exec_op hexec) hquiet

end Operations

/-! ## Flushes -/

section Flush

variable {us : List PositionUpdate}

theorem drift_update {u : PositionUpdate} (h : Linked m db) (hu : m.positionUpdate u.key = some u) (r : StoreResult) :
    Drift k (m.balanceAt k) db (db.write u r) := by
  unfold DB.write
  split
  · obtain ⟨ps, hps, heq⟩ := Option.map_eq_some_iff.1 hu
    rw [← heq]
    refine drift_write h hps _ _ fun hk => ?_
    rw [Manager.balanceAt, ← hk, hps]
    rfl
  · exact .refl db

/-- **A flush** copies balances from memory. -/
theorem flushOnce_drift {w : World} (h : Linked w.mgr w.db) (e : FlushEnv) :
    Linked (w.flushOnce e).mgr (w.flushOnce e).db ∧ Drift k (w.mgr.balanceAt k) w.db (w.flushOnce e).db ∧
      (w.flushOnce e).mgr.balanceAt k = w.mgr.balanceAt k := by
  obtain ⟨hpos, -⟩ := flushOnce_frame w e
  have hdrift : Drift k (w.mgr.balanceAt k) w.db (w.flushOnce e).db := by
    unfold World.flushOnce
    dsimp only
    split
    · exact .refl _
    obtain ⟨-, hdrift, -⟩ := flushDirty_induct (P := fun db _ => Drift k (w.mgr.balanceAt k) w.db db)
      (fun _ _ u r hu hd => hd.trans (drift_update (h.rows hd.identities) hu r)) (fun u hu => mem_updates hu) (.refl _) e
    exact hdrift
  exact ⟨(h.memory hpos).rows hdrift.identities, hdrift, balanceAt_congr hpos⟩

end Flush

/-! ## Restarts -/

theorem addPositions_rows {rows : List PositionRow} (h : rows.foldlM Manager.addPosition m = some m') :
    (∀ k ps, m'.positions k = some ps → m.positions k = some ps ∨
      ∃ row ∈ rows, row.key = k ∧ row.id = ps.id ∧ toMicro row.balance = some ps.balanceMicro) ∧
    (∀ k, (m.positions k).isSome → (m'.positions k).isSome) ∧ ∀ row ∈ rows, (m'.positions row.key).isSome := by
  induction rows generalizing m with
  | nil =>
    cases h
    exact ⟨fun k ps hps => .inl hps, fun k hk => hk, by simp⟩
  | cons row rows ih =>
    obtain ⟨m₁, hadd, hrest⟩ := Option.bind_eq_some_iff.1 h
    obtain ⟨b, hb, hadd⟩ := Option.bind_eq_some_iff.1 hadd
    obtain ⟨l, hl, hadd⟩ := Option.bind_eq_some_iff.1 hadd
    cases hadd
    obtain ⟨hfrom, hkept, hall⟩ := ih hrest
    have hrow : (m'.positions row.key).isSome := by
      refine hkept _ ?_
      simp [Manager.setPosition]
    refine ⟨fun k ps hps => ?_, fun k hk => hkept k ?_, fun row' hrow' => ?_⟩
    · rcases hfrom k ps hps with hps | ⟨row', hrow', hk, hid, hbal⟩
      · by_cases hk : k = row.key
        · subst hk
          simp only [Manager.setPosition, update_self, Option.some.injEq] at hps
          subst hps
          exact .inr ⟨row, mem_cons_self, rfl, rfl, hb⟩
        · simp only [Manager.setPosition, update_of_ne hk] at hps
          exact .inl hps
      · exact .inr ⟨row', mem_cons_of_mem _ hrow', hk, hid, hbal⟩
    · by_cases hrk : k = row.key
      · subst hrk
        simp [Manager.setPosition]
      · simpa [Manager.setPosition, update_of_ne hrk] using hk
    · rcases mem_cons.1 hrow' with rfl | hrow'
      · exact hrow
      · exact hall row' hrow'

theorem replayOps_drift {w : World} {e : OpRow → CallEnv} {ops : List OpRow} (h : Linked w.mgr w.db)
    (hops : ∀ op ∈ ops, op.opType = .reserve) :
    Linked (w.replayOps e ops).mgr (w.replayOps e ops).db ∧
      Drift k (w.mgr.balanceAt k) w.db (w.replayOps e ops).db ∧
      (w.replayOps e ops).mgr.balanceAt k = w.mgr.balanceAt k := by
  induction ops generalizing w with
  | nil => exact ⟨h, .refl _, rfl⟩
  | cons op ops ih =>
    have hop : (specOf op.opType).effect.balance = 0 := by rw [hops op mem_cons_self]; rfl
    obtain ⟨hlinked, hdrift, hbalance⟩ := exec_drift (k := k) h (e op) op.key op.amount op.reference "recovery"
      (.inr hop)
    obtain ⟨hlinked', hdrift', hbalance'⟩ := ih hlinked fun op' hop' => hops op' (mem_cons_of_mem _ hop')
    rw [hbalance] at hdrift' hbalance'
    exact ⟨hlinked', hdrift.trans hdrift', hbalance'⟩

/-- **A restart** finds each balance in its row, and leaves the rows as they are or copies
back what it found. -/
theorem loadPositions_balance {w w' : World} {e : LoadEnv} (h : w.crash.loadPositions e = some w')
    (hkeys : (w.db.identities.map Prod.fst).Nodup) (hids : (w.db.identities.map Prod.snd).Nodup) :
    Linked w'.mgr w'.db ∧ Drift k (w'.mgr.balanceAt k) w.db w'.db ∧
      (∀ b, w'.mgr.balanceAt k = some b → ∃ row ∈ w.db.positions, row.key = k ∧ toMicro row.balance = some b) ∧
      ∀ row ∈ w.db.positions, row.key = k → (w'.mgr.balanceAt k).isSome := by
  obtain ⟨-, -, h⟩ := Option.bind_eq_some_iff.1 h
  obtain ⟨m, hm, h⟩ := Option.bind_eq_some_iff.1 h
  have heq : w' = World.replayUncommitted ⟨m, w.db⟩ e := (Option.some.inj h).symm
  obtain ⟨hfrom, -, hall⟩ := addPositions_rows hm
  have hmem : ∀ k ps, m.positions k = some ps →
      ∃ row ∈ w.db.positions, row.key = k ∧ row.id = ps.id ∧ toMicro row.balance = some ps.balanceMicro := by
    intro k ps hps
    rcases hfrom k ps hps with hnone | hrow
    · cases hnone
    · exact hrow
  have hlinked : Linked m w.db := by
    refine ⟨hkeys, hids, fun k ps hps => ?_⟩
    obtain ⟨row, hrow, hk, hid, -⟩ := hmem k ps hps
    exact mem_map.2 ⟨row, hrow, by rw [hk, hid]⟩
  -- the replay starts from what was loaded
  have hreplay : Linked w'.mgr w'.db ∧ Drift k (m.balanceAt k) w.db w'.db ∧ w'.mgr.balanceAt k = m.balanceAt k := by
    rw [heq]
    unfold World.replayUncommitted
    have hstart : Linked { m with replaying := true } w.db := hlinked.memory rfl
    split
    · have hops : ∀ op ∈ w.db.getUncommittedOps, op.opType = .reserve := by
        intro op hop
        have hsel := (getUncommittedOps_perm w.db).mem_iff.1 hop
        have hand := (mem_filter.1 hsel).2
        rw [Bool.and_eq_true] at hand
        exact of_decide_eq_true hand.1
      obtain ⟨hl, hd, hb⟩ := replayOps_drift (k := k) (e := e.replay) (w := ⟨{ m with replaying := true }, w.db⟩) hstart hops
      exact ⟨hl.memory rfl, hd, hb⟩
    · exact ⟨hstart.memory rfl, .refl _, rfl⟩
  obtain ⟨hl, hd, hb⟩ := hreplay
  refine ⟨hl, hb ▸ hd, fun b hbal => ?_, fun row hrow hk => ?_⟩
  · rw [hb] at hbal
    obtain ⟨ps, hps, rfl⟩ := Option.map_eq_some_iff.1 hbal
    obtain ⟨row, hrow, hk, -, hmicro⟩ := hmem k ps hps
    exact ⟨row, hrow, hk, hmicro⟩
  · rw [hb, Manager.balanceAt, Option.isSome_map, ← hk]
    exact hall row hrow

end Settla.Treasury
