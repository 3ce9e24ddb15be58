import Mathlib.Data.List.Permutation
import Settla.Proof.Accounting
import Settla.Treasury.Atomic

/-!
# Interleaved operations on one position

Every operation makes its move with its first write. What goes wrong without a condition:
`ConsumeReservation` stores a balance computed from an earlier load, over a credit made in between; and
`Reserve` and `DebitBalance` each swap a counter the other only reads.
-/

namespace Settla.Treasury

open Lib Lib.Atomic List

/-! ## What the calls are for -/

def Movable (x : Counter → ℤ) (a : ℤ) : ReserveOpType → Prop
  | .reserve => a ≤ x .balance - x .locked - x .reserved
  | .release => a ≤ x .reserved
  | .commit => a ≤ x .reserved
  | .consume => a ≤ x .reserved
  | .credit => True
  | .debit => a ≤ x .balance - x .locked - x .reserved

def Effect.shift (f : Effect) (a : ℤ) (x : Counter → ℤ) : Counter → ℤ
  | .balance => x .balance + f.balance * a
  | .locked => x .locked + f.locked * a
  | .reserved => x .reserved + f.reserved * a

/-- Whether the check of a call reads counters that its first write does not compare. -/
def Call.Checked : Call → Prop
  | .op .reserve _ _ _ _ => True
  | .op .debit _ _ _ _ => True
  | .updateBalance _ _ => True
  | .op _ _ _ _ _ => False

instance : DecidablePred Call.Checked := fun c => by unfold Call.Checked; split <;> infer_instance

instance (x : Counter → ℤ) (a : ℤ) : DecidablePred (Movable x a) :=
  fun kind => by cases kind <;> unfold Movable <;> infer_instance

/-- The position as an object with moves: a call adds its effect, or sets the balance. -/
def positionSpec : Spec Counter Answer Call where
  apply x c := match c with
    | .op kind _ amount _ _ => (specOf kind).effect.shift (micro amount) x
    | .updateBalance _ v => Function.update x .balance (micro v)
  ok x c := match c with
    | .op kind _ amount _ _ => 0 < amount ∧ Movable x (micro amount) kind
    | .updateBalance _ v => x .locked + x .reserved ≤ micro v
  direct c := c = .reserved
  checked := Call.Checked
  done r := r = .nil

instance : DecidablePred positionSpec.checked := inferInstanceAs (DecidablePred Call.Checked)

instance (x : Counter → ℤ) : (c : Call) → Decidable (positionSpec.ok x c)
  | .op kind _ amount _ _ => inferInstanceAs (Decidable (0 < amount ∧ Movable x (micro amount) kind))
  | .updateBalance _ v => inferInstanceAs (Decidable (x .locked + x .reserved ≤ micro v))

/-! ## The programs, one by one -/

@[simp] theorem logged_rest (key : IdempotencyKey) (undo : Program → Program) (y : Counter) :
    (logged key undo).rest y = 0 := rfl

section Programs

variable {k : PositionKey} {amount : Decimal} {ref : UUID} {refType : String} {a : ℤ}

theorem opProgram_early (kind : ReserveOpType) (hpos : 0 < amount) (ha : toMicro amount = some a) :
    Early positionSpec (.op kind k amount ref refType) (opProgram k ref a kind) := by
  have hmicro : micro amount = a := micro_eq ha
  cases kind with
  | reserve =>
    intro balance locked currentReserved
    dsimp only
    split
    · rintro ⟨⟩
    -- the swap compares `reserved` only, so the check is a checked one
    · refine ⟨⟨fun x y => ?_, rfl, .inl trivial⟩, trivial⟩
      cases y <;> simp [positionSpec, Effect.shift, specOf_effect, hmicro]
  | release =>
    intro currentReserved
    dsimp only
    split
    · rintro ⟨⟩
    · rename_i hle
      refine ⟨⟨fun x y => ?_, rfl, .inr ⟨rfl, fun x hx => ⟨hpos, ?_⟩⟩⟩, trivial⟩
      · cases y <;> simp [positionSpec, Effect.shift, specOf_effect, hmicro]
      · rw [hmicro]
        exact (not_lt.1 hle).trans_eq hx.symm
  | commit =>
    intro currentReserved
    dsimp only
    split
    · rintro ⟨⟩
    · rename_i hle
      -- the store of `reserved` makes the move; the addition to `locked` is owed
      refine ⟨fun x y => ?_, ⟨by rintro ⟨⟩, rfl⟩, .inr ⟨rfl, fun x hx => ⟨hpos, ?_⟩⟩⟩
      · cases y <;> simp [positionSpec, Effect.shift, specOf_effect, hmicro, Prog.rest]
      · rw [hmicro]
        exact (not_lt.1 hle).trans_eq hx.symm
  | consume =>
    intro currentReserved
    dsimp only
    split
    · rintro ⟨⟩
    · rename_i hle
      intro currentBalance
      dsimp only
      split
      · rintro ⟨⟩
      · refine ⟨fun x y => ?_, ⟨by rintro ⟨⟩, rfl⟩, .inr ⟨rfl, fun x hx => ⟨hpos, ?_⟩⟩⟩
        · cases y <;> simp [positionSpec, Effect.shift, specOf_effect, hmicro, Prog.rest]
        · rw [hmicro]
          exact (not_lt.1 hle).trans_eq hx.symm
  | credit =>
    refine ⟨fun x y => ?_, rfl, fun x => ⟨hpos, trivial⟩⟩
    cases y <;> simp [positionSpec, Effect.shift, specOf_effect, hmicro]
  | debit =>
    intro currentBalance locked reserved
    dsimp only
    split
    · rintro ⟨⟩
    · refine ⟨⟨fun x y => ?_, rfl, .inl trivial⟩, trivial⟩
      cases y <;> simp [positionSpec, Effect.shift, specOf_effect, hmicro]

/-- **Every call is verified by itself.** -/
theorem program_early (c : Call) : Early positionSpec c (program c) := by
  cases c with
  | op kind k amount ref refType =>
    rw [program]
    split
    · rintro ⟨⟩
    · rename_i hpos
      split
      · rintro ⟨⟩
      · refine ⟨by rintro ⟨⟩, ?_⟩
        split
        · rintro ⟨⟩
        · rename_i a ha
          exact opProgram_early kind (not_not.1 hpos) ha
  | updateBalance k v =>
    rw [program, updateProgram]
    split
    · rintro ⟨⟩
    · rename_i b hb
      intro locked reserved
      dsimp only
      split
      · rintro ⟨⟩
      · refine ⟨fun x => ?_, fun _ => rfl, rfl⟩
        simp [positionSpec, micro_eq hb]

end Programs

/-! ## Interleavings -/

def SameAccount (x : Counter → ℤ) (acc : Account) : Prop :=
  x .balance = acc.balance ∧ x .locked = acc.locked ∧ x .reserved = acc.reserved

theorem book_step {x : Counter → ℤ} {b : Book PositionKey} {acc : Account} {c : Call}
    (hb : b c.position = some acc) (hx : SameAccount x acc) (hok : positionSpec.ok x c) :
    ∃ b₁ acc₁, Book.Step b c.entry b₁ ∧ b₁ c.position = some acc₁ ∧
      SameAccount (positionSpec.apply x c) acc₁ := by
  obtain ⟨hbal, hlck, hrsv⟩ := hx
  cases c with
  | op kind k amount ref refType =>
    obtain ⟨hpos, hmov⟩ := hok
    have ha : 0 ≤ micro amount := by
      unfold micro
      cases hm : toMicro amount with
      | none => exact le_rfl
      | some a => exact toMicro_nonneg hm hpos
    have hal : acc.Allows (micro amount) kind.move := by
      cases kind <;> simp only [Movable, ReserveOpType.move, Account.Allows, Account.free] at hmov ⊢ <;> omega
    refine ⟨_, acc.post kind.move (micro amount) ha hal, .move hb ha hal, Function.update_self .., ?_⟩
    cases kind <;>
      simp only [SameAccount, positionSpec, specOf_effect, Effect.shift, ReserveOpType.move, Account.post] <;> omega
  | updateBalance k v =>
    have hle : acc.locked + acc.reserved ≤ micro v := by
      have : x .locked + x .reserved ≤ micro v := hok
      omega
    refine ⟨_, acc.set (micro v) hle, .set hb hle, Function.update_self .., ?_⟩
    simp [SameAccount, positionSpec, Account.set, hlck, hrsv]

theorem book_run {k : PositionKey} {log : List Call} {x : Counter → ℤ} {b : Book PositionKey} {acc : Account}
    (hb : b k = some acc) (hx : SameAccount x acc) (hk : ∀ c ∈ log, c.position = k)
    (hlegal : Along positionSpec.apply positionSpec.ok x log) :
    ∃ b' acc', Book.Run b (log.map Call.entry) b' ∧ b' k = some acc' ∧
      SameAccount (run positionSpec.apply x log) acc' := by
  induction log generalizing x b acc with
  | nil => exact ⟨b, acc, .nil b, hb, hx⟩
  | cons c log ih =>
    obtain ⟨hok, hrest⟩ := hlegal
    have hck : c.position = k := hk c mem_cons_self
    have hbc : b c.position = some acc := by rw [hck]; exact hb
    obtain ⟨b₁, acc₁, hstep, hb₁, hx₁⟩ := book_step hbc hx hok
    rw [hck] at hb₁
    obtain ⟨b', acc', hrun, hb', hx'⟩ := ih hb₁ hx₁ (fun c' hc' => hk c' (mem_cons_of_mem _ hc')) hrest
    exact ⟨b', acc', .cons hstep hrun, hb', hx'⟩

theorem succeeded_eq {s : Concurrent} (hfits : ∀ t ∈ s.threads, t.Fits positionSpec) (hquiet : s.Quiet) :
    s.succeeded = (s.threads.filter (·.begun)).map (·.move) := by
  unfold Concurrent.succeeded
  congr 1
  apply filter_congr
  intro t ht
  -- a thread that has written answers nil, and one that has not answers otherwise
  obtain ⟨r, hr⟩ := hquiet t ht
  rw [Bool.eq_iff_iff, begun_iff (hfits t ht) hr, hr]
  cases r <;> simp [positionSpec]

/-- **No lost update and no overdraft.** In any clean interleaving, once all calls have returned the
counters are the sums of the calls that succeeded, in the order in which they took effect. -/
theorem no_lost_update (k : PositionKey) (ps : PositionState) (hl : 0 ≤ ps.lockedMicro)
    (hr : 0 ≤ ps.reservedMicro) (hc : ps.lockedMicro + ps.reservedMicro ≤ ps.balanceMicro)
    (keys : List IdempotencyKey) (calls : List Call) (hk : ∀ c ∈ calls, c.position = k)
    (acts : List (Action IdempotencyKey))
    (hclean : Along Concurrent.act (System.Clean positionSpec wrap64) (Concurrent.start ps keys calls) acts) (s : Concurrent)
    (hs : run Concurrent.act (Concurrent.start ps keys calls) acts = s) (hquiet : s.Quiet) :
    ∃ log : List Call, log.Perm s.succeeded ∧
      s.mem.counter .reserved = ps.reservedMicro + total .reserve k (log.map Call.entry)
        - total .release k (log.map Call.entry) - total .commit k (log.map Call.entry)
        - total .consume k (log.map Call.entry) ∧
      s.mem.counter .locked = ps.lockedMicro + total .commit k (log.map Call.entry) ∧
      s.mem.counter .balance = balanceAfter k ps.balanceMicro (log.map Call.entry) ∧
      s.mem.counter .locked + s.mem.counter .reserved ≤ s.mem.counter .balance := by
  have hstart : ∀ t ∈ (Concurrent.start ps keys calls).threads, t.begun = false ∧ t.Fits positionSpec := by
    intro t ht
    obtain ⟨c, -, rfl⟩ := mem_map.1 ht
    exact ⟨rfl, program_early c, program_early c⟩
  obtain ⟨log, hinv⟩ := run_inv wrap64 (fun t ht => (hstart t ht).1) (fun t ht => (hstart t ht).2) hclean
  have hmoves : s.threads.map (·.move) = calls := by
    have hinit : (Concurrent.start ps keys calls).threads.map (·.move) = calls := by
      unfold Concurrent.start
      rw [map_map]
      exact map_id _
    rw [← hs]
    exact run_invariant (P := fun s : Concurrent => s.threads.map (·.move) = calls)
      (fun s a => (act_moves wrap64 s a).trans) hinit _
  change Atomic.Inv _ _ (run Concurrent.act _ _) _ at hinv
  rw [hs] at hinv
  -- the calls of the log are calls of the threads, and these keep their position
  have hkeys : ∀ c ∈ log, c.position = k := by
    intro c hc
    obtain ⟨t, ht, rfl⟩ := mem_map.1 (hinv.made.mem_iff.1 hc)
    exact hk _ (hmoves ▸ mem_map_of_mem (mem_of_mem_filter ht))
  -- the calls that succeeded, one after the other, on the account of the position
  obtain ⟨b', acc', hrun, hb', hx'⟩ := book_run (b := fun _ => some ⟨_, _, _, hl, hr, hc⟩) rfl ⟨rfl, rfl, rfl⟩
    hkeys hinv.legal
  obtain ⟨acc, hacc, hres, hlck, hbal⟩ := hrun.account (k := k) rfl
  obtain rfl : acc' = acc := by simpa [hb'] using hacc
  rw [← hinv.view, quiet_view hquiet] at hx'
  obtain ⟨h₁, h₂, h₃⟩ := hx'
  refine ⟨log, ?_, h₃.trans hres, h₂.trans hlck, h₁.trans hbal, ?_⟩
  · rw [succeeded_eq hinv.fits hquiet]
    exact hinv.made
  · rw [h₁, h₂, h₃]
    exact acc'.covered

def fourCalls : List Call :=
  [.op .reserve usdPosition 40 1 "transfer", .op .commit usdPosition 30 2 "transfer",
    .op .credit usdPosition 50 3 "deposit", .updateBalance usdPosition 250]

def fourCallsOrder : List (Action IdempotencyKey) :=
  [0, 0, 0, 1, 1, 0, 2, 2, 0, 0, 1, 1, 3, 1, 3, 1, 3, 0, 1, 2].map (.step · true)

theorem no_lost_update_fourCalls :
    let s : Concurrent := run Concurrent.act (Concurrent.start ⟨1, 0, 100000000, 0, 30000000⟩ [] fourCalls) fourCallsOrder
    s.mem.counter .balance = 250000000 ∧ s.mem.counter .locked = 30000000 ∧
    s.mem.counter .reserved = 40000000 ∧
    ∃ log : List Call, log.Perm (Concurrent.succeeded s) ∧
      s.mem.counter .reserved = 30000000 + total .reserve usdPosition (log.map Call.entry)
        - total .release usdPosition (log.map Call.entry) - total .commit usdPosition (log.map Call.entry)
        - total .consume usdPosition (log.map Call.entry) ∧
      s.mem.counter .locked = 0 + total .commit usdPosition (log.map Call.entry) ∧
      s.mem.counter .balance = balanceAfter usdPosition 100000000 (log.map Call.entry) ∧
      s.mem.counter .locked + s.mem.counter .reserved ≤ s.mem.counter .balance := by
  refine ⟨by decide +kernel, by decide +kernel, by decide +kernel, ?_⟩
  exact no_lost_update usdPosition ⟨1, 0, 100000000, 0, 30000000⟩ (by decide) (by decide) (by decide) []
    fourCalls (by decide) fourCallsOrder (by decide +kernel) _ rfl (by decide +kernel)

/-- **A credit is lost, and a position is overdrawn.** A consume stores 100 - 30 over a credit of
50. A reserve and a debit of 100 both find 100 available. -/
theorem lost_credit_and_overdraft :
    let consume : Call := .op .consume usdPosition 30 7 "transfer"
    let credit : Call := .op .credit usdPosition 50 8 "deposit"
    let reserve : Call := .op .reserve usdPosition 100 7 "transfer"
    let debit : Call := .op .debit usdPosition 100 8 "payout"
    let s₁ := run Concurrent.act (Concurrent.start ⟨1, 0, 100000000, 0, 30000000⟩ [] [consume, credit])
      ([0, 0, 0, 0, 1, 1, 0, 0, 0, 0, 1].map (.step · true))
    let s₂ := run Concurrent.act (Concurrent.start ⟨1, 0, 100000000, 0, 0⟩ [] [reserve, debit])
      ([0, 0, 0, 0, 0, 1, 1, 1, 1, 1, 1, 0, 0, 1].map (.step · true))
    (s₁.Quiet ∧ Concurrent.succeeded s₁ = [consume, credit] ∧ s₁.mem.counter .balance = 70000000 ∧
      ∀ log : List Call, log.Perm [consume, credit] →
        balanceAfter usdPosition 100000000 (log.map Call.entry) = 120000000) ∧
    (s₂.Quiet ∧ Concurrent.succeeded s₂ = [reserve, debit] ∧ s₂.mem.counter .balance = 0 ∧
      s₂.mem.counter .locked = 0 ∧ s₂.mem.counter .reserved = 100000000) := by
  refine ⟨⟨by decide +kernel, by decide +kernel, by decide +kernel, ?_⟩, by decide +kernel⟩
  intro log hlog
  rcases perm_pair.1 hlog with rfl | rfl
  · decide +kernel
  · decide +kernel

end Settla.Treasury
