import Settla.Proof.Storage

/-!
# The flush circuit breaker

After three failed flushes three operations are rejected until a flush succeeds; a flush of an empty
dirty set does not count. `ConsumeReservation` is not rejected, and its synchronous flush of a large
amount takes its position out of the dirty set again.
-/

namespace Settla.Treasury

open Lib List

/-- If the breaker is open, there is something to flush, and a flush that succeeds closes it. -/
def CanClose (w : World) : Prop :=
  Manager.maxFlushFailuresBeforeReject ≤ w.mgr.consecutiveFlushFailures →
    w.mgr.dirtySet ≠ [] ∧
    ∀ e : FlushEnv, (∀ r ∈ e.results, r = .ok) → (w.flushOnce e).mgr.consecutiveFlushFailures = 0

/-- The operation is carried out, and its synchronous flush succeeds. -/
structure Flushes (o : OpSpec) (w : World) (e : CallEnv) (k : PositionKey) (amount : Decimal) (ref : UUID) : Prop where
  admits : Admits o w amount
  free : w.mgr.held ⟨ref, o.op⟩ = false
  allowed : Allowed o w k amount ref
  log : LogOK w e
  sync : o.sync ≠ .none
  large : w.mgr.isLarge k.currency amount = true
  ok : e.flush = .ok

/-- While the breaker is open, a large consumption that is flushed at once must not be the
last of the dirty positions. -/
def Spares (w : World) : Activity → Prop
  | .call e (.op .consume k amount ref _) =>
    Manager.maxFlushFailuresBeforeReject ≤ w.mgr.consecutiveFlushFailures →
      Flushes consumeSpec w e k amount ref → ∃ x ∈ w.mgr.dirtySet, x ≠ k
  | _ => True

variable {w w' : World} {o : OpSpec} {e : CallEnv} {k : PositionKey} {amount : Decimal} {ref : UUID} {refType : String}

/-! ## The flush -/

variable {kind : ReserveOpType}

theorem dirtyPositions_eq_nil {m : Manager} {order : List PositionKey} : m.dirtyPositions order = [] ↔ m.dirtySet = [] := by
  simp only [eq_nil_iff_forall_not_mem, mem_dirtyPositions]

/-- **A flush that succeeds closes the breaker, if there is something to flush.** -/
theorem flushOnce_closes (h : w.mgr.dirtySet ≠ []) {e : FlushEnv} (hok : ∀ r ∈ e.results, r = .ok) :
    (w.flushOnce e).mgr.consecutiveFlushFailures = 0 := by
  unfold World.flushOnce
  dsimp only
  rw [if_neg (mt dirtyPositions_eq_nil.1 h), (flushDirty_frame _ _ e).2.2 hok]
  rfl

theorem canClose_iff_dirty : CanClose w ↔
    (Manager.maxFlushFailuresBeforeReject ≤ w.mgr.consecutiveFlushFailures → w.mgr.dirtySet ≠ []) :=
  ⟨fun h hopen => (h hopen).1, fun h hopen => ⟨h hopen, fun _ hok => flushOnce_closes (h hopen) hok⟩⟩

theorem canClose_flush (h : CanClose w) (e : FlushEnv) : CanClose (w.flushOnce e) := by
  rw [canClose_iff_dirty] at h ⊢
  unfold World.flushOnce
  dsimp only
  split
  · exact h
  · intro hopen
    dsimp only at hopen ⊢
    split at hopen
    · exact absurd hopen (by decide)
    · rename_i hfailed
      simpa using hfailed

/-! ## The calls -/

theorem finish_dirty (a : ℤ) (ps : PositionState) : (o.finish w e k amount a ps).1.mgr.dirtySet =
    if o.sync ≠ .none ∧ w.mgr.isLarge k.currency amount = true ∧ e.flush = .ok then w.mgr.dirtySet.filter (· ≠ k)
    else w.mgr.dirtySet := by
  unfold OpSpec.finish
  rw [syncFlush_eq]
  by_cases hsync : o.sync ≠ .none ∧ w.mgr.isLarge k.currency amount = true
  · dsimp only
    rw [if_pos hsync]
    by_cases hok : e.flush = .ok
    · rw [if_pos hok, if_pos ⟨hsync.1, hsync.2, hok⟩, decide_eq_true hok]
      exact (alerted_silent _ _ _ _).dirtySet
    · rw [if_neg hok, if_neg fun h => hok h.2.2, decide_eq_false hok]
      cases o.sync <;> rfl
  · have hno : ¬ (o.sync ≠ .none ∧ w.mgr.isLarge k.currency amount = true ∧ e.flush = .ok) :=
      fun h => hsync ⟨h.1, h.2.1⟩
    rw [if_neg hsync, if_neg hno]
    exact (alerted_silent _ _ _ _).dirtySet

theorem opBody_dirty (h : Allowed o w k amount ref) : (opBody o w e k amount ref refType).1.mgr.dirtySet =
    if LogOK w e ∧ o.sync ≠ .none ∧ w.mgr.isLarge k.currency amount = true ∧ e.flush = .ok then
      (w.mgr.markDirty k).dirtySet.filter (· ≠ k)
    else (w.mgr.markDirty k).dirtySet := by
  obtain ⟨ps, a, hps, ha, hg⟩ := h
  obtain ⟨m, err, hs, -, heq⟩ := opBody_allowed hps ha hg
  have hdirty : m.dirtySet = (w.mgr.markDirty k).dirtySet := hs.dirtySet
  have hcfg : SameConfig w.mgr m := (sameConfig_set w.mgr _ _).trans hs.config
  rw [heq]
  by_cases hlog : LogOK w e
  · rw [if_pos hlog, finish_dirty, hdirty, hcfg.isLarge]
    simp only [hlog, true_and]
  · rw [if_neg hlog, if_neg fun h => hlog h.1]
    exact hdirty

theorem giveBack_dirty (key : IdempotencyKey) (x : World × Result) :
    (giveBack key x).1.mgr.dirtySet = x.1.mgr.dirtySet := by
  obtain ⟨w, r⟩ := x
  cases r <;> rfl

theorem runOp_empties (hne : w.mgr.dirtySet ≠ []) : (runOp o w e k amount ref refType).1.mgr.dirtySet = [] ↔
    Flushes o w e k amount ref ∧ ∀ x ∈ w.mgr.dirtySet, x = k := by
  rcases runOp_cases o w e k amount ref refType with ⟨hno, err, heq⟩ | ⟨-, hheld, heq⟩ | ⟨hadm, hfree, heq⟩
  · rw [heq]
    exact iff_of_false hne fun h => hno h.1.admits
  · rw [heq]
    refine iff_of_false hne fun h => ?_
    rw [h.1.free] at hheld
    cases hheld
  rw [heq, giveBack_dirty]
  by_cases hal : Allowed o w k amount ref
  · rw [opBody_dirty (w := { w with mgr := w.mgr.acquire e.now ⟨ref, o.op⟩ }) hal]
    split
    · rename_i hflush
      obtain ⟨hlog, hsync, hlarge, hok⟩ := hflush
      simp only [filter_eq_nil_iff, decide_eq_true_eq, not_not]
      constructor
      · intro hall
        exact ⟨⟨hadm, hfree, hal, hlog, hsync, hlarge, hok⟩, fun x hx => hall x (subset_markDirty _ _ hx)⟩
      · rintro ⟨-, hall⟩ x hx
        rcases mem_of_markDirty hx with hx | hx
        · exact hall x hx
        · exact hx
    · rename_i hno
      exact iff_of_false (ne_nil_of_mem (mem_markDirty _ _)) fun h => hno ⟨h.1.log, h.1.sync, h.1.large, h.1.ok⟩
  · obtain ⟨r, hbody, -⟩ := opBody_refused (w := { w with mgr := w.mgr.acquire e.now ⟨ref, o.op⟩ }) hal
    rw [hbody]
    exact iff_of_false hne fun h => hal h.1.allowed

theorem Flushes.consume (h : Flushes (specOf kind) w e k amount ref)
    (hopen : Manager.maxFlushFailuresBeforeReject ≤ w.mgr.consecutiveFlushFailures) : kind = .consume := by
  have hbreak := h.admits.2.2
  have hsync := h.sync
  cases kind with
  | consume => rfl
  | release | commit => exact absurd rfl hsync
  | reserve | credit | debit => exact absurd (hbreak.resolve_left nofun) (not_lt.2 hopen)

theorem runOp_failures (o : OpSpec) (w : World) (e : CallEnv) (k : PositionKey) (amount : Decimal) (ref : UUID)
    (refType : String) :
    (runOp o w e k amount ref refType).1.mgr.consecutiveFlushFailures = w.mgr.consecutiveFlushFailures := by
  rcases hu : runOp o w e k amount ref refType with ⟨w', r⟩
  cases runOp_outcome hu with
  | rejected | duplicate | panicked => rfl
  | failed _ _ _ hcfg | applied _ _ _ _ _ _ _ _ hcfg => exact hcfg.failures

theorem canClose_op (h : CanClose w) :
    CanClose (w.next (.call e (.op kind k amount ref refType))) ↔ Spares w (.call e (.op kind k amount ref refType)) := by
  rw [canClose_iff_dirty] at h ⊢
  have hfail : (w.next (.call e (.op kind k amount ref refType))).mgr.consecutiveFlushFailures =
      w.mgr.consecutiveFlushFailures := by
    show (w.exec e _).1.mgr.consecutiveFlushFailures = _
    rw [exec_eq_runOp, runOp_failures]
  have hempty (hopen : Manager.maxFlushFailuresBeforeReject ≤ w.mgr.consecutiveFlushFailures) :
      (w.next (.call e (.op kind k amount ref refType))).mgr.dirtySet = [] ↔
        Flushes (specOf kind) w e k amount ref ∧ ∀ x ∈ w.mgr.dirtySet, x = k := by
    show (w.exec e _).1.mgr.dirtySet = [] ↔ _
    rw [exec_eq_runOp, runOp_empties (h hopen)]
  rw [hfail]
  constructor
  · intro hne
    cases kind with
    | consume =>
      intro hopen hflush
      by_contra hall
      simp only [not_exists, not_and, not_not] at hall
      exact hne hopen ((hempty hopen).2 ⟨hflush, hall⟩)
    | _ => trivial
  · intro hspares hopen hnil
    obtain ⟨hflush, hall⟩ := (hempty hopen).1 hnil
    obtain rfl := hflush.consume hopen
    obtain ⟨x, hx, hne⟩ := hspares hopen hflush
    exact hne (hall x hx)

theorem canClose_updateBalance {newBalance : Decimal} (h : CanClose w) :
    CanClose (w.next (.call e (.updateBalance k newBalance))) := by
  show CanClose (w.updateBalance k newBalance).1
  rcases hu : w.updateBalance k newBalance with ⟨w', r⟩
  rcases updateBalance_cases hu with ⟨rfl, -⟩ | ⟨ps, b, -, -, -, -, rfl⟩
  · exact h
  · rw [canClose_iff_dirty]
    exact fun _ => ne_nil_of_mem (mem_markDirty _ _)

/-! ## Histories -/

/-- **One activity keeps the breaker able to close exactly if it spares the dirty set.** -/
theorem canClose_next (h : CanClose w) (a : Activity) : CanClose (w.next a) ↔ Spares w a := by
  cases a with
  | call e c =>
    cases c with
    | op kind k amount ref refType => exact canClose_op h
    | updateBalance k newBalance => exact iff_of_true (canClose_updateBalance h) trivial
  | flush e => exact iff_of_true (canClose_flush h e) trivial
  | cleanup now =>
    refine iff_of_true ?_ trivial
    rw [canClose_iff_dirty] at h ⊢
    exact h

/-- **The breaker can close in every state of a history exactly if every activity spares the
dirty set.** -/
theorem canClose_iff (h : CanClose w) (acts : List Activity) :
    Along World.next (fun w a => CanClose (w.next a)) w acts ↔ Along World.next Spares w acts :=
  along_congr (P := CanClose) (fun _ a hw => canClose_next hw a) (fun _ _ _ hnext => hnext) h acts

/-! ### The breaker stuck open -/

def calm : CallEnv := ⟨0, .ok, true, .ok⟩

def failedFlush : Activity := .flush ⟨[], true, [.err, .err]⟩

def outage : List Activity :=
  [.call calm (.op .reserve usdPosition 200000 7 ""), .call calm (.op .credit usdPosition 5 8 ""),
    failedFlush, failedFlush, failedFlush, .call calm (.op .consume usdPosition 200000 7 "")]

theorem outage_until_consumption :
    Along World.next (fun w a => CanClose (w.next a)) (single usdPosition ⟨1, 0, 1000000000000, 0, 0⟩)
        (outage.take 5) ↔
      Along World.next Spares (single usdPosition ⟨1, 0, 1000000000000, 0, 0⟩) (outage.take 5) :=
  canClose_iff (fun h => absurd h (by decide)) (outage.take 5)

/-- **The breaker stays open**: the consumption has emptied the dirty set, and a flush has nothing
to do. -/
theorem breaker_stuck : ∃ w, w = run World.next (single usdPosition ⟨1, 0, 1000000000000, 0, 0⟩) outage ∧
    Manager.maxFlushFailuresBeforeReject ≤ w.mgr.consecutiveFlushFailures ∧ w.mgr.dirtySet = [] ∧
    (w.flushOnce ⟨[], true, []⟩).mgr.consecutiveFlushFailures = 3 ∧
    (w.reserve calm usdPosition 1 9).2 = .err (.flushFailing .reserve 3 [1]) := by
  refine ⟨_, rfl, ?_⟩
  decide +kernel

end Settla.Treasury
