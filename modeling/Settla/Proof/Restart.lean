import Settla.Proof.Recovery

/-!
# Crash recovery

`GetUncommittedReserveOps` returns reserves only, so a credit, a debit, a commit or a consume since the
last flush is gone.
-/

namespace Settla.Treasury

open Lib List Function

/-! ## The replay -/

def PositionState.reserveMore (a : ℤ) (ps : PositionState) : PositionState :=
  { ps with reservedMicro := ps.reservedMicro + a }

variable {rows : List PositionRow} {e : LoadEnv} {w : World}

theorem map_reserveMore_zero (o : Option PositionState) : o.map (.reserveMore 0) = o := by
  cases o <;> simp [PositionState.reserveMore]

theorem replayOp_reserve {e : CallEnv} {op : OpRow} (hrep : w.mgr.replaying = true)
    (hfail : w.mgr.consecutiveFlushFailures = 0) (hkind : op.opType = .reserve)
    (hheld : w.mgr.held ⟨op.reference, .reserve⟩ = false) (hnn : 0 ≤ op.amount)
    (hin : microInRange op.amount = true) (hflush : e.flush = .ok) :
    SameConfig w.mgr (w.replayOp e op).1.mgr ∧
    (∀ ref, (w.replayOp e op).1.mgr.held ⟨ref, .reserve⟩ = true →
      ref = op.reference ∨ w.mgr.held ⟨ref, .reserve⟩ = true) ∧
    ∀ k, (∀ ps ∈ w.mgr.positions k, op.key = k → micro op.amount ≤ ps.available) →
      (w.replayOp e op).1.mgr.positions k =
        (w.mgr.positions k).map (.reserveMore (if op.key = k then micro op.amount else 0)) := by
  have hmicro : toMicro op.amount = some (micro op.amount) := by simp [micro, toMicro, hin]
  rcases hrun : w.replayOp e op with ⟨w', r⟩
  unfold World.replayOp at hrun
  rw [hkind] at hrun
  cases exec_op hrun with
  | rejected why =>
    refine ⟨.refl _, fun _ h => .inr h, fun k _ => ?_⟩
    rcases why with hneg | ⟨-, hout⟩ | ⟨-, hbreak⟩
    · -- an amount that the column rounded to zero reserves nothing
      have hz : op.amount = 0 := le_antisymm (not_lt.1 hneg) hnn
      have hmz : micro op.amount = 0 := by rw [hz]; decide +kernel
      simp only [hmz, ite_self]
      exact (map_reserveMore_zero _).symm
    · rw [hin] at hout; cases hout
    · rw [hfail] at hbreak; cases hbreak
  | duplicate hdup =>
    rw [specOf_op, hheld] at hdup
    cases hdup
  | panicked _ hcheck => cases hcheck
  | failed _ hpos hkeys hcfg hres =>
    refine ⟨hcfg, ?_, fun k hav => ?_⟩
    · exact fun ref hr => .inr (Manager.held_of_failed hkeys hr)
    · rw [hpos]
      -- the guard is the one thing that can refuse a replayed reserve
      rcases hres.reason with hno | hno | ⟨-, -, hno⟩
      · by_cases hk : op.key = k
        · subst hk
          cases hps : w.mgr.positions op.key with
          | none => rfl
          | some ps =>
            have hle : ps.Allows (micro op.amount) .reserve := hav ps hps rfl
            exact absurd (guard_eq_none.2 hle) (hno ps _ hps hmicro)
        · rw [if_neg hk, map_reserveMore_zero]
      · exact absurd (.inl hrep) hno
      · exact absurd hflush hno
  | @applied _ ps a _ _ _ ha hps _ hpos hkeys hcfg _ =>
    refine ⟨hcfg, ?_, fun k _ => ?_⟩
    · intro ref hr
      rcases Manager.held_of_applied hkeys hr with heq | hold
      · left; cases heq; rfl
      · exact .inr hold
    · rw [hpos]
      rw [hmicro] at ha
      cases ha
      by_cases hk : op.key = k
      · subst hk
        rw [update_self, hps, if_pos rfl, Option.map_some]
        simp [Effect.apply, specOf_effect, PositionState.reserveMore]
      · rw [update_of_ne (Ne.symm hk), if_neg hk, map_reserveMore_zero]

/-- **The replay adds up the reserves**, in any order, on every position that has room
for all of them. -/
theorem replayOps_reserved {e : OpRow → CallEnv} {ops : List OpRow} {k : PositionKey}
    (hrep : w.mgr.replaying = true) (hfail : w.mgr.consecutiveFlushFailures = 0)
    (hops : ∀ op ∈ ops, op.opType = .reserve ∧ 0 ≤ op.amount ∧ microInRange op.amount = true)
    (hrefs : (ops.map (·.reference)).Nodup) (hheld : ∀ op ∈ ops, w.mgr.held ⟨op.reference, .reserve⟩ = false)
    (hflush : ∀ op, (e op).flush = .ok) (hroom : ∀ ps ∈ w.mgr.positions k, reservedIn ops k ≤ ps.available) :
    (w.replayOps e ops).mgr.positions k = (w.mgr.positions k).map (.reserveMore (reservedIn ops k)) := by
  -- along the operations: what is reserved so far and what is to come is a constant
  induction ops generalizing w with
  | nil => exact (map_reserveMore_zero _).symm
  | cons op ops ih =>
    obtain ⟨hkind, hnn, hin⟩ := hops op mem_cons_self
    have hops' : ∀ x ∈ ops, x.opType = .reserve ∧ 0 ≤ x.amount ∧ microInRange x.amount = true :=
      fun x hx => hops x (mem_cons_of_mem _ hx)
    obtain ⟨hout, hrefs'⟩ := nodup_cons.1 hrefs
    obtain ⟨hcfg, hkeys, hpos⟩ := replayOp_reserve hrep hfail hkind (hheld op mem_cons_self) hnn hin
      (hflush op)
    have hrest : 0 ≤ reservedIn ops k := by
      apply reservedIn_nonneg
      intro x hx
      have hz : (0 : ℚ) ≤ x.amount * microScale := mul_nonneg (hops' x hx).2.1 (by norm_num [microScale])
      simpa [micro, toMicro, (hops' x hx).2.2] using intPart_nonneg hz
    -- there is room for this one, since there is room for all of them
    have hpos' := hpos k fun ps hps hk => by
      have hle := hroom ps hps
      rw [reservedIn_cons, if_pos hk] at hle
      omega
    have hheld' : ∀ x ∈ ops, (w.replayOp (e op) op).1.mgr.held ⟨x.reference, .reserve⟩ = false := by
      intro x hx
      rw [Bool.eq_false_iff]
      intro hcon
      rcases hkeys _ hcon with heq | hold
      · exact hout (mem_map.2 ⟨x, hx, heq⟩)
      · rw [hheld x (mem_cons_of_mem _ hx)] at hold
        cases hold
    have hroom' : ∀ ps ∈ (w.replayOp (e op) op).1.mgr.positions k, reservedIn ops k ≤ ps.available := by
      intro ps hps
      rw [hpos'] at hps
      obtain ⟨ps₀, hps₀, rfl⟩ := Option.map_eq_some_iff.1 hps
      have hle := hroom ps₀ hps₀
      rw [reservedIn_cons] at hle
      simp only [PositionState.available, PositionState.reserveMore] at hle ⊢
      omega
    have htail := ih (hcfg.replaying.trans hrep) (hcfg.failures.trans hfail) hops' hrefs' hheld' hroom'
    show (((w.replayOp (e op) op).1).replayOps e ops).mgr.positions k = _
    rw [htail, hpos', Option.map_map, reservedIn_cons]
    congr 1
    funext ps
    simp [PositionState.reserveMore, add_assoc]

/-! ## The restart -/

/-- The counters `addPosition` reads from a row. -/
def PositionRow.state (row : PositionRow) : PositionState :=
  ⟨row.id, row.minBalance, micro row.balance, micro row.locked, 0⟩

theorem addPositions_eq (m : Manager) (hkeys : (rows.map (·.key)).Nodup) (hload : ∀ row ∈ rows, row.Loadable) :
    ∃ m', rows.foldlM Manager.addPosition m = some m' ∧ SameConfig m m' ∧
      m'.idempotencyShards = m.idempotencyShards ∧ m'.dirtySet = m.dirtySet ∧
      ∀ k, m'.positions k = match rows.find? (·.key = k) with
        | some row => some row.state
        | none => m.positions k := by
  induction rows generalizing m with
  | nil => exact ⟨m, rfl, .refl m, rfl, rfl, fun _ => rfl⟩
  | cons row rows ih =>
    obtain ⟨hout, hkeys'⟩ := nodup_cons.1 hkeys
    obtain ⟨b, l, hb, hl⟩ := hload row mem_cons_self
    have hadd : m.addPosition row = some (m.setPosition row.key row.state) := by
      simp [Manager.addPosition, hb, hl, PositionRow.state, micro]
    obtain ⟨m', hm', hcfg, hshards, hdirty, hpos⟩ := ih (m.setPosition row.key row.state) hkeys'
      fun r hr => hload r (mem_cons_of_mem _ hr)
    refine ⟨m', by simp [foldlM_cons, hadd, hm'], ?_, hshards, hdirty, ?_⟩
    · exact ⟨hcfg.1, hcfg.2, hcfg.3, hcfg.4, hcfg.5⟩
    · intro k
      rw [hpos k]
      by_cases hk : row.key = k
      · subst hk
        -- no later row overwrites it: the keys are distinct
        have hnone : rows.find? (·.key = row.key) = none := by
          rw [List.find?_eq_none]
          intro r hr heq
          exact hout (mem_map.2 ⟨r, hr, of_decide_eq_true heq⟩)
        simp [hnone, Manager.setPosition]
      · have hne : update m.positions row.key (some row.state) k = m.positions k :=
          update_of_ne (Ne.symm hk) _ _
        simp [hk, Manager.setPosition, hne]

theorem rowAt_mem {db : DB} (hkeys : (db.positions.map (·.key)).Nodup) {row : PositionRow}
    (h : row ∈ db.positions) : db.rowAt row.key = some row := by
  unfold DB.rowAt
  cases hfind : db.positions.find? (·.key = row.key) with
  | none =>
    rw [List.find?_eq_none] at hfind
    exact absurd (decide_eq_true rfl) (hfind row h)
  | some row' =>
    have hmem := List.mem_of_find?_eq_some hfind
    have hkey : row'.key = row.key := by simpa using List.find?_some hfind
    rw [inj_on_of_nodup_map hkeys hmem h hkey]

theorem loadPositions_eq {m' : Manager} (hpages : e.pages = true)
    (hm : w.db.positions.foldlM Manager.addPosition w.mgr.cleared = some m') :
    w.loadPositions e = some (World.replayUncommitted ⟨m', w.db⟩ e) := by
  simp [World.loadPositions, hpages, hm]

theorem replayUncommitted_reserved {k : PositionKey} (hops : e.ops = true)
    (hflush : ∀ op, (e.replay op).flush = .ok) (hfail : w.mgr.consecutiveFlushFailures = 0)
    (hheld : ∀ key, w.mgr.held key = false) (hrefs : (w.db.uncommitted.map (·.reference)).Nodup)
    (hamounts : ∀ r ∈ w.db.uncommitted, 0 ≤ r.amount ∧ microInRange r.amount = true)
    (hroom : ∀ ps ∈ w.mgr.positions k, reservedIn w.db.uncommitted k ≤ ps.available) :
    (w.replayUncommitted e).mgr.positions k =
      (w.mgr.positions k).map (.reserveMore (reservedIn w.db.uncommitted k)) := by
  have hperm := getUncommittedOps_perm w.db
  rw [← reservedIn_perm hperm] at hroom ⊢
  unfold World.replayUncommitted
  dsimp only
  rw [if_pos hops]
  refine replayOps_reserved rfl hfail ?_ ((hperm.map _).nodup_iff.2 hrefs) (fun _ _ => hheld _) hflush hroom
  intro op hop
  have hop := hperm.mem_iff.1 hop
  exact ⟨(mem_uncommitted.1 hop).2.1, hamounts op hop⟩

/-- **A restart from a database that is ready** brings back every position whose row is
current. -/
theorem RecInv.restart {stale : List PositionKey} (h : RecInv w stale) (hpages : e.pages = true)
    (hops : e.ops = true) (hflush : ∀ op, (e.replay op).flush = .ok) :
    ∃ w', w.crash.loadPositions e = some w' ∧
      ∀ k, k ∉ stale → w'.mgr.positions k = w.mgr.positions k := by
  have hload : ∀ row ∈ w.db.positions, row.Loadable := by
    intro row hmem
    have hrow := rowAt_mem h.table.keys hmem
    cases hps : w.mgr.positions row.key with
    | none =>
      rw [h.table.absent _ hps] at hrow
      cases hrow
    | some ps =>
      obtain ⟨row', hrow', -, -, hload, -⟩ := h.table.row _ ps hps
      rw [hrow] at hrow'
      cases hrow'
      exact hload
  obtain ⟨m', hm', hcfg, hshards, -, hpos⟩ := addPositions_eq w.crash.mgr.cleared h.table.keys hload
  refine ⟨_, loadPositions_eq hpages hm', fun k hk => ?_⟩
  -- the position as it is loaded: the counters without what is reserved
  have hloaded : m'.positions k = (w.mgr.positions k).map fun ps => { ps with reservedMicro := 0 } := by
    rw [hpos k]
    cases hps : w.mgr.positions k with
    | none =>
      have hnone := h.table.absent k hps
      unfold DB.rowAt at hnone
      rw [hnone]
      rfl
    | some ps =>
      obtain ⟨row, hrow, hid, hmin, -, hcur⟩ := h.table.row k ps hps
      obtain ⟨hb, hl⟩ := hcur hk
      unfold DB.rowAt at hrow
      rw [hrow]
      simp [PositionRow.state, micro_eq hb, micro_eq hl, hid, hmin]
  have hroom : ∀ ps ∈ m'.positions k, reservedIn w.db.uncommitted k ≤ ps.available := by
    intro ps hps
    rw [hloaded] at hps
    obtain ⟨ps₀, hps₀, rfl⟩ := Option.map_eq_some_iff.1 hps
    have hc := (h.covered k ps₀ hps₀).covered
    rw [← h.log.reserved k ps₀ hps₀]
    simp only [PositionState.available]
    omega
  have hreplay := replayUncommitted_reserved (w := ⟨m', w.db⟩) hops hflush hcfg.failures
    (fun _ => Manager.held_congr hshards) h.log.refs h.log.amounts hroom
  refine hreplay.trans ?_
  rw [hloaded, Option.map_map]
  cases hps : w.mgr.positions k with
  | none => rfl
  | some ps => simp [PositionState.reserveMore, ← h.log.reserved k ps hps]

/-! ## From the first start to a crash -/

/-- A positions table as the schema and the ledger of an operator have it. -/
structure RowsOK (rows : List PositionRow) : Prop where
  keys : (rows.map (·.key)).Nodup
  ids : (rows.map (·.id)).Nodup
  range : ∀ row ∈ rows, 0 ≤ row.locked ∧ row.locked ≤ row.balance ∧ microInRange row.balance = true

theorem RowsOK.row_micro (h : RowsOK rows) {row : PositionRow} (hrow : row ∈ rows) :
    toMicro row.balance = some (micro row.balance) ∧ toMicro row.locked = some (micro row.locked) ∧
    row.state.Covered := by
  obtain ⟨hl, hle, hin⟩ := h.range row hrow
  have hs : (0 : ℚ) ≤ microScale := by norm_num [microScale]
  have hscaled : row.locked * microScale ≤ row.balance * microScale := mul_le_mul_of_nonneg_right hle hs
  have hl0 : 0 ≤ row.locked * microScale := mul_nonneg hl hs
  have hmax : row.balance * microScale ≤ maxMicroValue := by
    simp only [microInRange, Bool.not_eq_true', Bool.or_eq_false_iff, decide_eq_false_iff_not, not_lt] at hin
    exact hin.1
  -- locked is in range because it is between zero and the balance
  have hlin : microInRange row.locked = true := by
    have h₁ : ¬ (maxMicroValue : ℚ) < row.locked * microScale := not_lt.2 (hscaled.trans hmax)
    have h₂ : ¬ row.locked * microScale < -(maxMicroValue : ℚ) := by
      have hpos : (0 : ℚ) ≤ maxMicroValue := by norm_num [maxMicroValue]
      exact not_lt.2 ((neg_nonpos.2 hpos).trans hl0)
    simp only [microInRange, gt_iff_lt, h₁, h₂, decide_false, Bool.or_false, Bool.not_false]
  have hb : toMicro row.balance = some (intPart (row.balance * microScale)) := if_pos hin
  have hk : toMicro row.locked = some (intPart (row.locked * microScale)) := if_pos hlin
  rw [micro_eq hb, micro_eq hk]
  refine ⟨hb, hk, ?_⟩
  constructor <;> simp only [PositionRow.state, micro_eq hb, micro_eq hk]
  · exact intPart_nonneg hl0
  · exact le_rfl
  · rw [add_zero]
    exact intPart_mono hl0 hscaled
  · rw [intPart_eq_floor (hl0.trans hscaled)]
    exact Int.floor_le_iff.2 (lt_of_le_of_lt hmax (lt_add_one _))

/-- The first start: the log is empty, no key is held and every position is loaded as its
row has it. -/
theorem boot_cases {m : Manager} (hrows : RowsOK rows)
    (h : (World.mk m ⟨rows, []⟩).crash.loadPositions e = some w) :
    w.db = ⟨rows, []⟩ ∧ w.mgr.replaying = false ∧ (∀ key, w.mgr.held key = false) ∧
    ∀ k, w.mgr.positions k = (w.db.rowAt k).map PositionRow.state := by
  obtain ⟨m', hm', -, hshards, -, hpos⟩ := addPositions_eq (World.mk m ⟨rows, []⟩).crash.mgr.cleared
    hrows.keys fun row hr => ⟨_, _, (hrows.row_micro hr).1, (hrows.row_micro hr).2.1⟩
  have hpages : e.pages = true := by
    by_contra hno
    simp [World.loadPositions, hno] at h
  rw [loadPositions_eq hpages hm'] at h
  cases h
  have hw : World.replayUncommitted ⟨m', ⟨rows, []⟩⟩ e = ⟨{ m' with replaying := false }, ⟨rows, []⟩⟩ := by
    cases hops : e.ops <;> simp [World.replayUncommitted, hops, DB.getUncommittedOps, DB.uncommitted,
      World.replayOps]
  rw [show (World.mk m ⟨rows, []⟩).crash.db = ⟨rows, []⟩ from rfl, hw]
  refine ⟨rfl, rfl, fun key => Manager.held_congr hshards, fun k => ?_⟩
  refine (hpos k).trans ?_
  unfold DB.rowAt
  cases rows.find? (·.key = k) <;> rfl

theorem boot_recInv {m : Manager} (hrows : RowsOK rows)
    (h : (World.mk m ⟨rows, []⟩).crash.loadPositions e = some w) : RecInv w [] := by
  obtain ⟨hdb, hlive, -, hpos⟩ := boot_cases hrows h
  have hrowsdb : w.db.positions = rows := by rw [hdb]
  -- a loaded position is the state of the one row with its key
  have hrow : ∀ k ps, w.mgr.positions k = some ps →
      ∃ row ∈ rows, w.db.rowAt k = some row ∧ row.key = k ∧ ps = row.state := by
    intro k ps hps
    rw [hpos k] at hps
    obtain ⟨row, hfind, rfl⟩ := Option.map_eq_some_iff.1 hps
    have hmem := List.mem_of_find?_eq_some hfind
    rw [hrowsdb] at hmem
    exact ⟨row, hmem, hfind, by simpa using List.find?_some hfind, rfl⟩
  refine ⟨hlive, ⟨?_, ?_, ?_, ?_⟩, ⟨?_, ?_, ?_⟩, ?_, nil_subset _, fun _ hk => by cases hk⟩
  · rw [hrowsdb]
    exact hrows.keys
  · intro k k' ps ps' hps hps' hid
    obtain ⟨row, hmem, -, rfl, rfl⟩ := hrow k ps hps
    obtain ⟨row', hmem', -, rfl, rfl⟩ := hrow k' ps' hps'
    rw [inj_on_of_nodup_map hrows.ids hmem hmem' hid]
  · intro k hnone
    rw [hpos k] at hnone
    exact Option.map_eq_none_iff.1 hnone
  · intro k ps hps
    obtain ⟨row, hmem, hat, rfl, rfl⟩ := hrow k ps hps
    obtain ⟨hb, hl, -⟩ := hrows.row_micro hmem
    exact ⟨row, hat, rfl, rfl, ⟨_, _, hb, hl⟩, fun _ => ⟨hb, hl⟩⟩
  · rw [hdb]
    exact nodup_nil
  · intro r hr
    rw [hdb] at hr
    cases hr
  · intro k ps hps
    obtain ⟨row, -, -, -, rfl⟩ := hrow k ps hps
    rw [hdb]
    rfl
  · intro k ps hps
    obtain ⟨row, hmem, -, -, rfl⟩ := hrow k ps hps
    exact (hrows.row_micro hmem).2.2

/-- **Crash recovery.** After operations, flushes and cleanups that meet `Recoverable`, a crash and
a load with a store that answers, every position that no commit, consume, credit or debit has
changed since its row was last written has the counters it had. -/
theorem recovery_exact (m : Manager) (rows : List PositionRow) (hrows : RowsOK rows) (e₀ : LoadEnv)
    (w₀ : World) (hboot : (World.mk m ⟨rows, []⟩).crash.loadPositions e₀ = some w₀)
    (steps : List RecoveryStep) (hok : Along Tracked.step Recoverable ⟨w₀, []⟩ steps) (e : LoadEnv)
    (hpages : e.pages = true) (hops : e.ops = true) (hflush : ∀ op, (e.replay op).flush = .ok) :
    ∃ w', (run Tracked.step ⟨w₀, []⟩ steps).world.crash.loadPositions e = some w' ∧
      ∀ k, k ∉ (run Tracked.step ⟨w₀, []⟩ steps).stale →
        w'.mgr.positions k = (run Tracked.step ⟨w₀, []⟩ steps).world.mgr.positions k :=
  (run_preserves (P := fun s => RecInv s.world s.stale) (fun _ _ => step_recInv) (boot_recInv hrows hboot) hok).restart
    hpages hops hflush

/-! ## A run on one position -/

def quietCall : CallEnv := ⟨0, .ok, true, .ok⟩

def quietLoad : LoadEnv := ⟨true, true, fun _ => quietCall⟩

def sterlingRow : PositionRow := ⟨10, ⟨1, "GBP", "bank:gbp"⟩, 100, 0, 0⟩

theorem sterlingRow_ok : RowsOK [sterlingRow] where
  keys := nodup_singleton _
  ids := nodup_singleton _
  range := by decide +kernel

def sterlingBoot : Option World := (World.mk newManager ⟨[sterlingRow], []⟩).crash.loadPositions quietLoad

theorem sterlingBoot_isSome : sterlingBoot.isSome = true := by decide +kernel

def flushedCommit : List RecoveryStep :=
  [.op quietCall .reserve sterlingRow.key 30 7 "", .op quietCall .commit sterlingRow.key 30 7 "",
    .flush ⟨[], true, [.ok]⟩, .op quietCall .reserve sterlingRow.key 20 8 ""]

instance (w : World) (e : CallEnv) (kind : ReserveOpType) (k : PositionKey) (amount : Decimal) :
    Decidable (w.Durable e kind k amount) :=
  inferInstanceAs (Decidable (_ ∧ _))

instance (w : World) (k : PositionKey) (amount : Decimal) (ref : UUID) : Decidable (w.Open k amount ref) :=
  inferInstanceAs (Decidable (∃ r ∈ w.db.uncommitted,
    r.reference = ref ∧ r.key = k ∧ toMicro r.amount = toMicro amount))

instance (w : World) (k : PositionKey) (amount : Decimal) (ref : UUID) (kind : ReserveOpType) :
    Decidable (w.Paired k amount ref kind) := by
  cases kind <;> unfold World.Paired <;> infer_instance

instance (s : Tracked) (i : RecoveryStep) : Decidable (Recoverable s i) := by cases i <;> unfold Recoverable <;> infer_instance

theorem recovery_exact_flushed : ∃ w w', sterlingBoot = some w ∧
    Along Tracked.step Recoverable ⟨w, []⟩ flushedCommit ∧
    (run Tracked.step ⟨w, []⟩ flushedCommit).world.crash.loadPositions quietLoad = some w' ∧
    w'.mgr.positions sterlingRow.key = some ⟨10, 0, 100000000, 30000000, 20000000⟩ := by
  obtain ⟨w, hw⟩ := Option.isSome_iff_exists.1 sterlingBoot_isSome
  have hok : Along Tracked.step Recoverable ⟨w, []⟩ flushedCommit := by
    have hall : sterlingBoot.all fun w => decide (Along Tracked.step Recoverable ⟨w, []⟩ flushedCommit) := by
      decide +kernel
    rw [hw] at hall
    exact of_decide_eq_true hall
  obtain ⟨w', hw', hpos⟩ := recovery_exact newManager [sterlingRow] sterlingRow_ok quietLoad w hw
    flushedCommit hok quietLoad rfl rfl fun _ => rfl
  refine ⟨w, w', hw, hok, hw', ?_⟩
  have hend : sterlingBoot.all fun w =>
      decide ((run Tracked.step ⟨w, []⟩ flushedCommit).stale = []) &&
      decide ((run Tracked.step ⟨w, []⟩ flushedCommit).world.mgr.positions sterlingRow.key =
        some ⟨10, 0, 100000000, 30000000, 20000000⟩) := by
    decide +kernel
  rw [hw] at hend
  simp only [Option.all_some, Bool.and_eq_true, decide_eq_true_eq] at hend
  rw [hpos _ (by rw [hend.1]; exact not_mem_nil)]
  exact hend.2

/-- **A credit that is not flushed is lost**, although the log has its row. -/
theorem unflushed_credit_lost :
    let credit : RecoveryStep := .op quietCall .credit sterlingRow.key 50 7 "deposit"
    (sterlingBoot.map fun w => (w.exec quietCall (.op .credit sterlingRow.key 50 7 "deposit")).2) = some .nil ∧
    (sterlingBoot.map fun w =>
      (Tracked.step ⟨w, []⟩ credit).world.db.reserveOps.map fun r => (r.opType, r.amount)) =
        some [(.credit, 50)] ∧
    (sterlingBoot.map fun w => (Tracked.step ⟨w, []⟩ credit).world.mgr.positions sterlingRow.key) =
      some (some ⟨10, 0, 150000000, 0, 0⟩) ∧
    ((sterlingBoot.bind fun w => (Tracked.step ⟨w, []⟩ credit).world.crash.loadPositions quietLoad).map
      fun w' => w'.mgr.positions sterlingRow.key) = some (some ⟨10, 0, 100000000, 0, 0⟩) := by
  decide +kernel

end Settla.Treasury
