import Settla.Node.TreasuryWorker
import Settla.Proof.Manager

/-!
# What the treasury worker can do

A treasury intent is a `Demand` on the manager. `execute_cases` reduces its execution to the outcome of
the manager call, and `Outcome.effect` to what that did to the reserved counter and the keys.
-/

namespace Settla.Node

open Treasury Function

structure Demand where
  op : ReserveOpType
  transferID : UUID
  position : PositionKey
  amount : Decimal
  reference : UUID

def demandOf : Intent → Option Demand
  | .treasuryReserve p => some ⟨.reserve, p.transferID, ⟨p.tenantID, p.currency, p.location⟩, p.amount, p.transferID⟩
  | .treasuryRelease p =>
    some ⟨.release, p.transferID, ⟨p.tenantID, p.currency, p.location⟩, p.amount, releaseRef p.transferID p.reason⟩
  | .treasuryConsume p => some ⟨.consume, p.transferID, ⟨p.tenantID, p.currency, p.location⟩, p.amount, p.transferID⟩
  | _ => none

def Demand.key (d : Demand) : IdempotencyKey := ⟨d.reference, d.op⟩

variable {d : Demand} {i : Intent} {w : World}

theorem demandOf_op (h : demandOf i = some d) : d.op = .reserve ∨ d.op = .release ∨ d.op = .consume := by
  cases i <;> cases h <;> simp

theorem demandOf_reserve (h : demandOf i = some d) (hop : d.op = .reserve) :
    d.reference = d.transferID ∧ ∃ p, i = .treasuryReserve p ∧ p.transferID = d.transferID := by
  cases i with
  | treasuryReserve p => cases h; exact ⟨rfl, p, rfl, rfl⟩
  | treasuryRelease | treasuryConsume => cases h; cases hop
  | _ => cases h

/-- **Executing an intent is one call of the manager.** -/
theorem execute_cases (text : Err → String) (s : Worker) (e : CallEnv) (i : Intent) :
    (demandOf i = none ∧ (s.execute text e i).1 = s) ∨
    ∃ d w' r, demandOf i = some d ∧
      Outcome (specOf d.op) s.treasury e d.position d.amount d.reference w' r ∧
      (s.execute text e i).1 =
        ⟨w', s.history ++ [⟨i, r, reservedAt w' d.position - reservedAt s.treasury d.position⟩]⟩ := by
  cases i with
  | treasuryReserve | treasuryRelease | treasuryConsume => exact .inr ⟨_, _, _, rfl, runOp_outcome rfl, rfl⟩
  | _ => exact .inl ⟨rfl, rfl⟩

/-! ## Reserved counter and keys -/

theorem reservedAt_congr {w' : World} (h : w'.mgr.positions = w.mgr.positions) (k : PositionKey) :
    reservedAt w' k = reservedAt w k := by
  unfold reservedAt
  rw [h]

def sign (op : ReserveOpType) : ℤ := (specOf op).effect.reserved

/-- What executing an intent does: nothing to the counters, or its operation under a key that
was free. -/
inductive Worked (s : Worker) (d : Demand) (w' : World) : Result → ℤ → Prop
  | idle {r : Result} (same : w'.mgr.positions = s.treasury.mgr.positions)
      (dup : r = .nil → s.treasury.mgr.held d.key = true)
      (keys : ∀ key, w'.mgr.held key = true → s.treasury.mgr.held key = true) : Worked s d w' r 0
  | took {a : ℤ} {ps : PositionState} (free : s.treasury.mgr.held d.key = false) (pos : 0 < d.amount)
      (micro : toMicro d.amount = some a) (nonneg : 0 ≤ a) (before : s.treasury.mgr.positions d.position = some ps)
      (allows : ps.Allows a d.op)
      (after : w'.mgr.positions =
        update s.treasury.mgr.positions d.position (some ((specOf d.op).effect.apply a ps)))
      (keys : ∀ key, w'.mgr.held key = true → key = d.key ∨ s.treasury.mgr.held key = true) :
      Worked s d w' .nil (sign d.op * a)

theorem execute_worked (text : Err → String) (s : Worker) (e : CallEnv) (i : Intent) :
    (demandOf i = none ∧ (s.execute text e i).1 = s) ∨
    ∃ d w' r n, demandOf i = some d ∧ Outcome (specOf d.op) s.treasury e d.position d.amount d.reference w' r ∧
      Worked s d w' r n ∧ (s.execute text e i).1 = ⟨w', s.history ++ [⟨i, r, n⟩]⟩ := by
  rcases execute_cases text s e i with h | ⟨d, w', r, hd, hout, h⟩
  · exact .inl h
  refine .inr ⟨d, w', r, _, hd, hout, ?_, h⟩
  -- the worker sends no commits, and the other operations check the range first
  have hr : r ≠ .panic := by
    rintro rfl
    have hno := hout.panic.1
    rcases demandOf_op hd with h | h | h <;> rw [h] at hno <;> cases hno
  rcases outcome_effect hout hr with ⟨hpos, hdup, hkeys⟩ | ⟨rfl, hfree, -, hkeys, ps, a, ha, hnn, hps, hg, hpos⟩
  · rw [reservedAt_congr hpos, sub_self]
    exact .idle hpos (fun hnil => (hdup hnil).1) hkeys
  -- the difference of the counter across the call is the signed amount
  · have hadded : reservedAt w' d.position - reservedAt s.treasury d.position = sign d.op * a := by
      simp [reservedAt, hpos, hps, sign]
    rw [hadded]
    refine .took hfree ?_ ha hnn hps (guard_eq_none.1 hg) hpos hkeys
    cases hout with
    | duplicate hheld => rw [specOf_op, hfree] at hheld; cases hheld
    | applied _ _ hpos => exact hpos

/-- What one execution adds to the history: an entry without effect, or the operation
under a key that was free. -/
inductive Entry (s : Worker) (d : Demand) (w' : World) : Result → ℤ → Prop
  | idle {r : Result} (dup : r = .nil → s.treasury.mgr.held d.key = true)
      (keys : ∀ key, w'.mgr.held key = true → s.treasury.mgr.held key = true) : Entry s d w' r 0
  | took {a : ℤ} (free : s.treasury.mgr.held d.key = false) (micro : toMicro d.amount = some a) (nonneg : 0 ≤ a)
      (keys : ∀ key, w'.mgr.held key = true → key = d.key ∨ s.treasury.mgr.held key = true) :
      Entry s d w' .nil (sign d.op * a)

/-- **What executing an intent does to the history and the keys.** -/
theorem execute_entry (text : Err → String) (s : Worker) (e : CallEnv) (i : Intent) :
    (demandOf i = none ∧ (s.execute text e i).1 = s) ∨
    ∃ d w' r added, demandOf i = some d ∧ Entry s d w' r added ∧
      (s.execute text e i).1 = ⟨w', s.history ++ [⟨i, r, added⟩]⟩ := by
  rcases execute_worked text s e i with h | ⟨d, w', r, n, hd, -, hworked, h⟩
  · exact .inl h
  refine .inr ⟨d, w', r, n, hd, ?_, h⟩
  cases hworked with
  | idle same dup keys => exact .idle dup keys
  | took free pos micro nonneg before allows after keys => exact .took free micro nonneg keys

/-! ## Totals over the history -/

@[simp] theorem totalReserved_append (w : World) (h : List Executed) (x : Executed) (id : UUID) :
    (Worker.mk w (h ++ [x])).totalReserved id = (h.map (Executed.reserves id)).sum + x.reserves id := by
  simp [Worker.totalReserved]

@[simp] theorem totalFreed_append (w : World) (h : List Executed) (x : Executed) (id : UUID) :
    (Worker.mk w (h ++ [x])).totalFreed id = (h.map (Executed.frees id)).sum + x.frees id := by
  simp [Worker.totalFreed]

theorem reserves_eq (hd : demandOf i = some d) (r : Result) (n : ℤ) (id : UUID) :
    (Executed.mk i r n).reserves id = if d.op = .reserve ∧ d.transferID = id then n else 0 := by
  cases i <;> cases hd <;> simp [Executed.reserves]

theorem frees_eq (hd : demandOf i = some d) (r : Result) (n : ℤ) (id : UUID) :
    (Executed.mk i r n).frees id = if d.op ≠ .reserve ∧ d.transferID = id then -n else 0 := by
  cases i <;> cases hd <;> simp [Executed.frees]

theorem reserved_snoc {s : Worker} {r : Result} {n : ℤ} {id : UUID} (hd : demandOf i = some d) :
    (Worker.mk w (s.history ++ [⟨i, r, n⟩])).Reserved id ↔
      s.Reserved id ∨ r = .nil ∧ d.op = .reserve ∧ d.transferID = id := by
  unfold Worker.Reserved
  simp only [List.mem_append, List.mem_singleton, or_and_right, exists_or, exists_eq_left]
  refine or_congr Iff.rfl (and_congr Iff.rfl ?_)
  cases i <;> cases hd <;> simp

end Settla.Node
