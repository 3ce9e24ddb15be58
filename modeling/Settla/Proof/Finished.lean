import Settla.Proof.Restart
import Settla.Proof.TreasuryWorker

/-!
# Finished reservations

The log pairs a reserve with the operation that ended it by their reference. A release with a reason runs
under the hash of the two, so its row never ends the reserve, which is replayed at every restart.
-/

namespace Settla.Node

open Lib Treasury List

/-! ## Runs of the worker -/

inductive WorkerStep
  | execute (e : CallEnv) (i : Intent)
  | flush (e : FlushEnv)
  | cleanup (cutoff : Time)

def Worker.step (text : Err → String) (s : Worker) : WorkerStep → Worker
  | .execute e i => (s.execute text e i).1
  | .flush e => { s with treasury := s.treasury.flushOnce e }
  | .cleanup cutoff =>
    { s with treasury := { s.treasury with db := s.treasury.db.cleanupCompletedReserveOps cutoff } }

/-- A release or a consume for transfer `id` that returned nil. -/
def Executed.finishes (id : UUID) (x : Executed) : Bool :=
  decide (x.result = .nil) && match x.intent with
    | .treasuryRelease p => decide (p.transferID = id)
    | .treasuryConsume p => decide (p.transferID = id)
    | _ => false

def Worker.Finished (s : Worker) (id : UUID) : Prop := ∃ x ∈ s.history, x.finishes id = true

instance (s : Worker) (id : UUID) : Decidable (s.Finished id) :=
  inferInstanceAs (Decidable (∃ x ∈ s.history, x.finishes id = true))

def emptyReason : Intent → Bool
  | .treasuryRelease p => p.reason = ""
  | _ => true

/-- Releases give no reason; an operation that passes its checks is paired in the log, and no
transfer that has finished reserves again. -/
def Orderly (s : Worker) : WorkerStep → Prop
  | .execute e i => emptyReason i = true ∧ ∀ d ∈ demandOf i,
      s.treasury.Durable e d.op d.position d.amount ∧
      (s.treasury.passes d.op d.position d.amount d.reference = true →
        s.treasury.Paired d.position d.amount d.reference d.op ∧
        (d.op = .reserve → ¬ s.Finished d.transferID))
  | .flush _ => True
  | .cleanup cutoff => ∀ c ∈ s.treasury.db.reserveOps, c.opType.completes = true → c.createdAt < cutoff →
      ∀ r ∈ s.treasury.db.reserveOps, r.opType = .reserve → r.reference = c.reference → r.createdAt < cutoff

/-! ## What an intent does to the log -/

section

variable {op : ReserveOpType} {w w' : World} {e : CallEnv} {k : PositionKey} {amount : Decimal} {ref : UUID}
  {r : Result}

theorem outcome_log (hlive : w.mgr.replaying = false) (hdur : w.Durable e op k amount)
    (hkind : op = .reserve ∨ op.completes = true) (hcommit : op ≠ .commit)
    (h : Outcome (specOf op) w e k amount ref w' r) :
    (w'.db.reserveOps = w.db.reserveOps ∧ (r = .nil → w.mgr.held ⟨ref, op⟩ = true) ∧
      ∀ key, w'.mgr.held key = true → w.mgr.held key = true) ∨
    (r = .nil ∧ w.passes op k amount ref = true ∧
      w'.db.reserveOps = (w.db.insertReserveOp ⟨k, amount, ref, op, e.now⟩).reserveOps ∧
      ∀ key, w'.mgr.held key = true → key = ⟨ref, op⟩ ∨ w.mgr.held key = true) := by
  cases h with
  | rejected => exact .inl ⟨rfl, nofun, fun _ hk => hk⟩
  | duplicate hheld => exact .inl ⟨rfl, fun _ => specOf_op op ▸ hheld, fun _ hk => hk⟩
  | panicked _ hno =>
    -- only `CommitReservation` skips the range check
    cases op with
    | commit => exact absurd rfl hcommit
    | reserve | release | consume | credit | debit => cases hno
  | failed _ _ hkeys _ hres =>
    exact .inl ⟨by rw [residue_db hdur hkind hres], nofun, fun _ hk => Manager.held_of_failed hkeys hk⟩
  | applied hheld hlog hamount ha hps hg _ hkeys _ hper =>
    rw [specOf_op] at hheld hper hkeys
    rw [logged_live hlive hlog] at hper
    exact .inr ⟨rfl, by simp [World.passes, hheld, hamount, hps, ha, hg], persist_reserveOps hper,
      fun _ hk => Manager.held_of_applied hkeys hk⟩

end

/-! ## The history -/

section

variable {i : Intent} {d : Demand} {s : Worker} {r : Result} {n : ℤ} {id : UUID} {w : World}

theorem demandOf_reference (hd : demandOf i = some d) (hempty : emptyReason i = true) :
    d.reference = d.transferID := by
  cases i with
  | treasuryReserve | treasuryConsume => cases hd; rfl
  | treasuryRelease p =>
    cases hd
    have hreason : p.reason = "" := of_decide_eq_true hempty
    simp [releaseRef, hreason]
  | _ => cases hd

theorem demandOf_kind (hd : demandOf i = some d) :
    (d.op = .reserve ∨ d.op.completes = true) ∧ d.op ≠ .commit := by
  rcases demandOf_op hd with h | h | h <;> rw [h] <;> decide

theorem finished_snoc (hd : demandOf i = some d) :
    (Worker.mk w (s.history ++ [⟨i, r, n⟩])).Finished id ↔
      s.Finished id ∨ r = .nil ∧ d.op ≠ .reserve ∧ d.transferID = id := by
  have happ : (Worker.mk w (s.history ++ [⟨i, r, n⟩])).Finished id ↔
      s.Finished id ∨ (Executed.mk i r n).finishes id = true := by
    simp [Worker.Finished, or_and_right, exists_or]
  rw [happ]
  refine or_congr Iff.rfl ?_
  cases i <;> cases hd <;> simp [Executed.finishes]

end

/-! ## The invariant -/

/-- The log against the history of the worker. -/
structure FinInv (s : Worker) : Prop where
  ready : ∃ stale, RecInv s.treasury stale
  reserveRow : ∀ r ∈ s.treasury.db.reserveOps, r.opType = .reserve → s.Reserved r.reference
  doneRow : ∀ r ∈ s.treasury.db.reserveOps, r.opType.completes = true → s.Finished r.reference
  pending : ∀ id, s.Reserved id → s.Finished id ∨ ∃ r ∈ s.treasury.db.uncommitted, r.reference = id
  unfinished : ∀ r ∈ s.treasury.db.uncommitted, ¬ s.Finished r.reference
  keys : ∀ ref op, s.treasury.mgr.held ⟨ref, op⟩ = true →
    (op = .reserve → s.Reserved ref) ∧ (op.completes = true → s.Finished ref)

namespace FinInv

variable {s s' : Worker} {T : UUID} {row : OpRow}

theorem idle (h : FinInv s) (hready : ∃ stale, RecInv s'.treasury stale)
    (hres : ∀ id, s'.Reserved id ↔ s.Reserved id) (hfin : ∀ id, s'.Finished id ↔ s.Finished id)
    (hrows : s'.treasury.db.reserveOps ⊆ s.treasury.db.reserveOps)
    (hun : s'.treasury.db.uncommitted = s.treasury.db.uncommitted)
    (hkeys : ∀ key, s'.treasury.mgr.held key = true → s.treasury.mgr.held key = true) : FinInv s' := by
  refine ⟨hready, ?_, ?_, ?_, ?_, ?_⟩
  · exact fun r hr hop => (hres _).2 (h.reserveRow r (hrows hr) hop)
  · exact fun r hr hop => (hfin _).2 (h.doneRow r (hrows hr) hop)
  · intro id hid
    rw [hfin, hun]
    exact h.pending id ((hres id).1 hid)
  · intro r hr
    rw [hfin]
    rw [hun] at hr
    exact h.unfinished r hr
  · intro ref op hheld
    rw [hres, hfin]
    exact h.keys ref op (hkeys _ hheld)

theorem reserve (h : FinInv s) (hready : ∃ stale, RecInv s'.treasury stale)
    (hop : row.opType = .reserve) (hT : row.reference = T) (hnew : ¬ s.Finished T)
    (hres : ∀ id, s'.Reserved id ↔ s.Reserved id ∨ T = id) (hfin : ∀ id, s'.Finished id ↔ s.Finished id)
    (hrows : s'.treasury.db.reserveOps = (s.treasury.db.insertReserveOp row).reserveOps)
    (hkeys : ∀ key, s'.treasury.mgr.held key = true → key = ⟨T, .reserve⟩ ∨ s.treasury.mgr.held key = true) :
    FinInv s' := by
  -- an ended reference would be one of a finished transfer
  have hopen : s.treasury.db.completed row.reference = false := by
    rw [Bool.eq_false_iff]
    intro hcon
    obtain ⟨c, hc, href, hcomp⟩ := completed_iff.1 hcon
    have hdone := h.doneRow c hc hcomp
    rw [href, hT] at hdone
    exact hnew hdone
  have hun : s'.treasury.db.uncommitted = s.treasury.db.uncommitted ++ [row.stored] := by
    rw [uncommitted_congr hrows, uncommitted_insert_reserve hop hopen]
  refine ⟨hready, ?_, ?_, ?_, ?_, ?_⟩
  · intro r hr hop
    rcases mem_insertReserveOp.1 (hrows ▸ hr) with hr | rfl
    · exact (hres _).2 (.inl (h.reserveRow r hr hop))
    · exact (hres _).2 (.inr hT.symm)
  · intro r hr hcomp
    rcases mem_insertReserveOp.1 (hrows ▸ hr) with hr | rfl
    · exact (hfin _).2 (h.doneRow r hr hcomp)
    · rw [show row.stored.opType = row.opType from rfl, hop] at hcomp
      cases hcomp
  · intro id hid
    rw [hfin, hun]
    rcases (hres id).1 hid with hid | rfl
    · rcases h.pending id hid with hdone | ⟨r, hr, href⟩
      · exact .inl hdone
      · exact .inr ⟨r, mem_append_left _ hr, href⟩
    · exact .inr ⟨row.stored, by simp, hT⟩
  · simp only [hfin]
    rw [hun]
    refine forall_mem_snoc h.unfinished ?_
    rw [show row.stored.reference = row.reference from rfl, hT]
    exact hnew
  · intro ref op hheld
    rcases hkeys _ hheld with heq | hold
    · cases heq
      exact ⟨fun _ => (hres _).2 (.inr rfl), nofun⟩
    · rw [hres, hfin]
      exact ⟨fun hop => .inl ((h.keys ref op hold).1 hop), (h.keys ref op hold).2⟩

theorem finish (h : FinInv s) (hready : ∃ stale, RecInv s'.treasury stale)
    (hop : row.opType.completes = true) (hT : row.reference = T)
    (hres : ∀ id, s'.Reserved id ↔ s.Reserved id) (hfin : ∀ id, s'.Finished id ↔ s.Finished id ∨ T = id)
    (hrows : s'.treasury.db.reserveOps = (s.treasury.db.insertReserveOp row).reserveOps)
    (hkeys : ∀ key, s'.treasury.mgr.held key = true →
      key = ⟨T, row.opType⟩ ∨ s.treasury.mgr.held key = true) :
    FinInv s' := by
  have hun : s'.treasury.db.uncommitted = s.treasury.db.uncommitted.filter (·.reference ≠ T) := by
    rw [uncommitted_congr hrows, uncommitted_insert_completes hop, hT]
  have hkind : row.opType ≠ .reserve := by
    intro hcon
    rw [hcon] at hop
    cases hop
  refine ⟨hready, ?_, ?_, ?_, ?_, ?_⟩
  · intro r hr hreserve
    rcases mem_insertReserveOp.1 (hrows ▸ hr) with hr | rfl
    · exact (hres _).2 (h.reserveRow r hr hreserve)
    · exact absurd hreserve hkind
  · intro r hr hcomp
    rcases mem_insertReserveOp.1 (hrows ▸ hr) with hr | rfl
    · exact (hfin _).2 (.inl (h.doneRow r hr hcomp))
    · exact (hfin _).2 (.inr hT.symm)
  · intro id hid
    rw [hfin, hun]
    rcases h.pending id ((hres id).1 hid) with hdone | ⟨r, hr, rfl⟩
    · exact .inl (.inl hdone)
    -- pending before: finished now, or still selected
    · by_cases heq : T = r.reference
      · exact .inl (.inr heq)
      · exact .inr ⟨r, mem_filter.2 ⟨hr, by simpa using Ne.symm heq⟩, rfl⟩
  · intro r hr
    rw [hun] at hr
    obtain ⟨hr, hne⟩ := mem_filter.1 hr
    rw [hfin]
    rintro (hdone | heq)
    · exact h.unfinished r hr hdone
    · exact of_decide_eq_true hne heq.symm
  · intro ref op hheld
    rcases hkeys _ hheld with heq | hold
    · cases heq
      exact ⟨fun hcon => absurd hcon hkind, fun _ => (hfin _).2 (.inr rfl)⟩
    · rw [hres, hfin]
      exact ⟨(h.keys ref op hold).1, fun hop => .inl ((h.keys ref op hold).2 hop)⟩

end FinInv

/-! ## Steps and runs -/

variable {text : Err → String}

theorem execute_finInv {s : Worker} {e : CallEnv} {i : Intent} (h : FinInv s)
    (hok : Orderly s (.execute e i)) : FinInv (s.execute text e i).1 := by
  rcases execute_cases text s e i with ⟨-, heq⟩ | ⟨d, w', r, hd, hout, heq⟩
  · rw [heq]; exact h
  rw [heq]
  obtain ⟨hempty, hcond⟩ := hok
  obtain ⟨hdur, hpair⟩ := hcond d hd
  obtain ⟨stale, hrec⟩ := h.ready
  have href := demandOf_reference hd hempty
  obtain ⟨hkind, hcommit⟩ := demandOf_kind hd
  have hready : ∃ stale, RecInv w' stale := ⟨_, op_recInv hrec hdur (fun hp => (hpair hp).1) hout⟩
  rcases outcome_log hrec.live hdur hkind hcommit hout with ⟨hrows, hdup, hkeys⟩ | ⟨rfl, hpass, hrows, hkeys⟩
  · -- nothing happened; a nil answer means that the key was held and the transfer known
    refine h.idle hready ?_ ?_ (by rw [hrows]; exact fun _ hr => hr) (uncommitted_congr hrows) hkeys
    · intro id
      rw [reserved_snoc hd]
      refine ⟨fun hid => hid.elim (·) ?_, .inl⟩
      rintro ⟨hnil, hop, rfl⟩
      rw [← href]
      exact (h.keys _ _ (hdup hnil)).1 hop
    · intro id
      rw [finished_snoc hd]
      refine ⟨fun hid => hid.elim (·) ?_, .inl⟩
      rintro ⟨hnil, hop, rfl⟩
      rw [← href]
      exact (h.keys _ _ (hdup hnil)).2 (hkind.resolve_left hop)
  -- it took effect, under the transfer id
  · by_cases hop : d.op = .reserve
    · rw [hop] at hkeys
      refine h.reserve hready hop href ((hpair hpass).2 hop) ?_ ?_ hrows (href ▸ hkeys)
      · intro id
        rw [reserved_snoc hd]
        simp [hop]
      · intro id
        rw [finished_snoc hd]
        simp [hop]
    · refine h.finish hready (hkind.resolve_left hop) href ?_ ?_ hrows (href ▸ hkeys)
      · intro id
        rw [reserved_snoc hd]
        simp [hop]
      · intro id
        rw [finished_snoc hd]
        simp [hop]

theorem step_finInv {s : Worker} {i : WorkerStep} (h : FinInv s) (hok : Orderly s i) : FinInv (s.step text i) := by
  obtain ⟨stale, hrec⟩ := h.ready
  cases i with
  | execute e i => exact execute_finInv h hok
  | flush e =>
    obtain ⟨-, hkeys, -, hops, -⟩ := flushOnce_frame s.treasury e
    refine h.idle ⟨_, flush_recInv hrec e⟩ (fun _ => Iff.rfl) (fun _ => Iff.rfl) ?_ (uncommitted_congr hops) ?_
    · intro r hr
      exact hops ▸ hr
    · exact fun key hk => (Manager.held_congr hkeys).symm.trans hk
  | cleanup cutoff =>
    refine h.idle ⟨_, cleanup_recInv hrec hok⟩ (fun _ => Iff.rfl) (fun _ => Iff.rfl) ?_
      (uncommitted_cleanup hok) fun _ hk => hk
    exact fun r hr => mem_of_mem_filter hr

theorem boot_finInv {m : Manager} {rows : List PositionRow} (hrows : RowsOK rows) {e : LoadEnv} {w : World}
    (h : (World.mk m ⟨rows, []⟩).crash.loadPositions e = some w) : FinInv ⟨w, []⟩ := by
  obtain ⟨hdb, -, hheld, -⟩ := boot_cases hrows h
  have hnone : ∀ r, r ∉ w.db.reserveOps := by
    intro r hr
    rw [hdb] at hr
    cases hr
  refine ⟨⟨[], boot_recInv hrows h⟩, ?_, ?_, ?_, ?_, ?_⟩
  · exact fun r hr => absurd hr (hnone r)
  · exact fun r hr => absurd hr (hnone r)
  · rintro id ⟨x, hx, -⟩
    cases hx
  · exact fun r hr => absurd (mem_uncommitted.1 hr).1 (hnone r)
  · intro ref op hk
    rw [hheld] at hk
    cases hk

/-- **Finished reservations are not replayed** in an orderly run: the uncommitted operations are the
reserves of the transfers without a successful release or consume; and once everything is flushed a
restart brings every position back. -/
theorem finished_not_replayed (text : Err → String) (m : Manager) (rows : List PositionRow)
    (hrows : RowsOK rows) (e₀ : LoadEnv) (w₀ : World)
    (hboot : (World.mk m ⟨rows, []⟩).crash.loadPositions e₀ = some w₀) (steps : List WorkerStep)
    (hok : Along (Worker.step text) Orderly ⟨w₀, []⟩ steps) (s : Worker)
    (hs : run (Worker.step text) ⟨w₀, []⟩ steps = s) (hclean : s.treasury.mgr.dirtySet = []) (e : LoadEnv)
    (hpages : e.pages = true) (hops : e.ops = true) (hflush : ∀ op, (e.replay op).flush = .ok) :
    (∀ r, r ∈ s.treasury.db.getUncommittedOps ↔
      r ∈ s.treasury.db.reserveOps ∧ r.opType = .reserve ∧ ¬ s.Finished r.reference) ∧
    (∀ id, (∃ r ∈ s.treasury.db.getUncommittedOps, r.reference = id) ↔ s.Reserved id ∧ ¬ s.Finished id) ∧
    ∃ w', s.treasury.crash.loadPositions e = some w' ∧
      ∀ k, w'.mgr.positions k = s.treasury.mgr.positions k := by
  have h : FinInv s := hs ▸ run_preserves (fun _ _ => step_finInv) (boot_finInv hrows hboot) hok
  have hperm := getUncommittedOps_perm s.treasury.db
  refine ⟨fun r => ?_, fun id => ?_, ?_⟩
  · rw [hperm.mem_iff]
    constructor
    · intro hr
      obtain ⟨hmem, hop, -⟩ := mem_uncommitted.1 hr
      exact ⟨hmem, hop, h.unfinished r hr⟩
    · rintro ⟨hmem, hop, hno⟩
      refine mem_uncommitted.2 ⟨hmem, hop, ?_⟩
      rw [Bool.eq_false_iff]
      intro hcon
      obtain ⟨c, hc, href, hcomp⟩ := completed_iff.1 hcon
      exact hno (href ▸ h.doneRow c hc hcomp)
  · constructor
    · rintro ⟨r, hr, rfl⟩
      have hr := hperm.mem_iff.1 hr
      obtain ⟨hmem, hop, -⟩ := mem_uncommitted.1 hr
      exact ⟨h.reserveRow r hmem hop, h.unfinished r hr⟩
    · rintro ⟨hres, hno⟩
      obtain ⟨r, hr, href⟩ := (h.pending id hres).resolve_left hno
      exact ⟨r, hperm.mem_iff.2 hr, href⟩
  · obtain ⟨stale, hrec⟩ := h.ready
    obtain ⟨w', hw', hpos⟩ := hrec.restart hpages hops hflush
    refine ⟨w', hw', fun k => hpos k fun hk => ?_⟩
    -- nothing is dirty, so nothing is stale
    have hdirty := hrec.dirty hk
    rw [hclean] at hdirty
    cases hdirty

instance (s : Worker) (i : WorkerStep) : Decidable (Orderly s i) := by cases i <;> unfold Orderly <;> infer_instance

def reserveStep (id : UUID) : WorkerStep := .execute quietCall (.treasuryReserve ⟨id, 1, "GBP", 30, "bank:gbp"⟩)

def releaseStep (id : UUID) (reason : String) : WorkerStep :=
  .execute quietCall (.treasuryRelease ⟨id, 1, "GBP", 30, "bank:gbp", reason⟩)

def flushStep : WorkerStep := .flush ⟨[], true, [.ok]⟩

def plainRelease : List WorkerStep :=
  [reserveStep 7, reserveStep 8, releaseStep 7 "", releaseStep 7 "", flushStep]

/-- The transfer that did not release is the one that is replayed. -/
theorem finished_not_replayed_plain : ∃ w s w', sterlingBoot = some w ∧
    run (Worker.step fun _ => "") ⟨w, []⟩ plainRelease = s ∧
    (∀ id, (∃ r ∈ s.treasury.db.getUncommittedOps, r.reference = id) ↔ s.Reserved id ∧ ¬ s.Finished id) ∧
    s.treasury.crash.loadPositions quietLoad = some w' ∧
    w'.mgr.positions sterlingRow.key = some ⟨10, 0, 100000000, 0, 30000000⟩ := by
  obtain ⟨w, hw⟩ := Option.isSome_iff_exists.1 sterlingBoot_isSome
  have hrun : sterlingBoot.all fun w =>
      decide (Along (Worker.step fun _ => "") Orderly ⟨w, []⟩ plainRelease) &&
      decide ((run (Worker.step fun _ => "") ⟨w, []⟩ plainRelease).treasury.mgr.dirtySet = []) &&
      decide ((run (Worker.step fun _ => "") ⟨w, []⟩ plainRelease).treasury.mgr.positions sterlingRow.key =
        some ⟨10, 0, 100000000, 0, 30000000⟩) := by
    decide +kernel
  rw [hw] at hrun
  simp only [Option.all_some, Bool.and_eq_true, decide_eq_true_eq] at hrun
  obtain ⟨-, hids, w', hw', hpos⟩ := finished_not_replayed (fun _ => "") newManager [sterlingRow] sterlingRow_ok
    quietLoad w hw plainRelease hrun.1.1 _ rfl hrun.1.2 quietLoad rfl rfl fun _ => rfl
  exact ⟨w, _, w', hw, rfl, hids, hw', (hpos _).trans hrun.2⟩

def releasedWithReason : List WorkerStep := [reserveStep 7, releaseStep 7 "settlement_failure", flushStep]

/-- **A release with a reason does not end the reserve in the log**: nothing is reserved before the
restart, and 30 after it. -/
theorem released_is_replayed : ∃ w s w', sterlingBoot = some w ∧
    run (Worker.step fun _ => "") ⟨w, []⟩ releasedWithReason = s ∧
    s.history.map (·.result) = [.nil, .nil] ∧ s.treasury.mgr.dirtySet = [] ∧ s.Finished 7 ∧
    s.treasury.db.getUncommittedOps.map (·.reference) = [7] ∧
    s.treasury.mgr.positions sterlingRow.key = some ⟨10, 0, 100000000, 0, 0⟩ ∧
    s.treasury.crash.loadPositions quietLoad = some w' ∧
    w'.mgr.positions sterlingRow.key = some ⟨10, 0, 100000000, 0, 30000000⟩ := by
  obtain ⟨w, hw⟩ := Option.isSome_iff_exists.1 sterlingBoot_isSome
  have hrun : sterlingBoot.all fun w =>
      let s := run (Worker.step fun _ => "") ⟨w, []⟩ releasedWithReason
      decide (s.history.map (·.result) = [.nil, .nil]) && decide (s.treasury.mgr.dirtySet = []) &&
      decide (s.Finished 7) && decide (s.treasury.db.getUncommittedOps.map (·.reference) = [7]) &&
      decide (s.treasury.mgr.positions sterlingRow.key = some ⟨10, 0, 100000000, 0, 0⟩) &&
      (s.treasury.crash.loadPositions quietLoad).any fun w' =>
        decide (w'.mgr.positions sterlingRow.key = some ⟨10, 0, 100000000, 0, 30000000⟩) := by
    decide +kernel
  rw [hw] at hrun
  simp only [Option.all_some, Bool.and_eq_true, decide_eq_true_eq, Option.any_eq_true] at hrun
  obtain ⟨⟨⟨⟨⟨hres, hclean⟩, hfin⟩, hun⟩, hmem⟩, w', hw', hback⟩ := hrun
  exact ⟨w, _, w', hw, rfl, hres, hclean, hfin, hun, hmem, hw', hback⟩

end Settla.Node
