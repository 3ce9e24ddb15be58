import Settla.Proof.Accounting
import Settla.Treasury.Machine

/-!
# When the counters wrap

Every operation but `CreditBalance`, which checks the range of each amount but not of the sum, keeps the
counters in the range of an int64. `CommitReservation` panics on an amount beyond it.
-/

namespace Settla.Treasury

open Lib List

/-! ## Counters that fit -/

def InInt64 (x : ℤ) : Prop := -2 ^ 63 ≤ x ∧ x < 2 ^ 63

instance : DecidablePred InInt64 := fun x => inferInstanceAs (Decidable (-2 ^ 63 ≤ x ∧ x < 2 ^ 63))

theorem wrap64_eq {x : ℤ} (h : InInt64 x) : wrap64 x = x := by
  obtain ⟨hlo, hhi⟩ := h
  exact Int.bmod_eq_of_le_mul_two (by omega) (by omega)

/-- Locked and reserved are part of the balance, and the balance is an int64. -/
structure PositionState.Fits (ps : PositionState) : Prop where
  locked_nonneg : 0 ≤ ps.lockedMicro
  reserved_nonneg : 0 ≤ ps.reservedMicro
  covered : ps.lockedMicro + ps.reservedMicro ≤ ps.balanceMicro
  bounded : ps.balanceMicro < 2 ^ 63

def World.Fits (w : World) : Prop := ∀ k ps, w.mgr.positions k = some ps → ps.Fits

section Arithmetic

variable {rd : ℤ → ℤ} (hrd : ∀ x, InInt64 x → rd x = x) {ps : PositionState}
include hrd

theorem availableWith_eq (h : ps.Fits) : ps.availableWith rd = ps.available := by
  obtain ⟨hl, hr, hc, hb⟩ := h
  have h₁ : rd (ps.balanceMicro - ps.lockedMicro) = ps.balanceMicro - ps.lockedMicro := hrd _ ⟨by omega, by omega⟩
  unfold PositionState.availableWith PositionState.available
  rw [h₁]
  exact hrd _ ⟨by omega, by omega⟩

theorem addWith_eq {n a x : ℤ} (h : InInt64 (x + n * a)) : addWith rd n a x = x + n * a := by
  unfold addWith
  split
  · rename_i hn
    rw [hn, zero_mul, add_zero]
  · exact hrd _ h

theorem applyWith_eq {f : Effect} {a : ℤ} (h : (f.apply a ps).Fits) : f.applyWith rd a ps = f.apply a ps := by
  obtain ⟨hl, hr, hc, hb⟩ := h
  simp only [Effect.apply_locked, Effect.apply_reserved, Effect.apply_balance] at hl hr hc hb
  unfold Effect.applyWith Effect.apply
  rw [addWith_eq hrd ⟨by omega, by omega⟩, addWith_eq hrd ⟨by omega, by omega⟩, addWith_eq hrd ⟨by omega, by omega⟩]

theorem applyWith_neg {f : Effect} {a : ℤ} (h : ps.Fits) : f.applyWith rd (-a) (f.apply a ps) = ps := by
  have hback : f.apply (-a) (f.apply a ps) = ps := Effect.apply_neg f a ps
  rw [applyWith_eq hrd (by rw [hback]; exact h), hback]

theorem guardWith_eq {kind : ReserveOpType} {k : PositionKey} {a : ℤ} {ref : UUID} (h : ps.Fits) :
    guardWith rd kind k ps a ref = (specOf kind).guard k ps a ref := by
  have hav := availableWith_eq hrd h
  cases kind <;> simp only [guardWith, specOf, reserveSpec, debitSpec, needAvailable, needAvailableWith, hav]

theorem updateWith_eq (o : OpSpec) (m : Manager) (now : Time) (k : PositionKey) (amount : Decimal) (ref : UUID)
    (refType : String) (h : ps.Fits) :
    o.updateWith rd m now k ps amount ref refType = o.update m now k ps amount ref refType := by
  have hsum : rd (ps.lockedMicro + ps.reservedMicro) = ps.lockedMicro + ps.reservedMicro := by
    obtain ⟨hl, hr, hc, hb⟩ := h
    exact hrd _ ⟨by omega, by omega⟩
  unfold OpSpec.updateWith OpSpec.update
  cases o.event with
  | none => rfl
  | some ev =>
    unfold Manager.queueEventWith Manager.queueEvent
    simp only [hsum]

theorem finishWith_eq (o : OpSpec) (w : World) (e : CallEnv) (k : PositionKey) (amount : Decimal) {a : ℤ}
    (h : ps.Fits) (h' : (o.effect.apply a ps).Fits) :
    o.finishWith rd w e k amount a (o.effect.apply a ps) = o.finish w e k amount a (o.effect.apply a ps) := by
  have halert : ∀ m : Manager, m.checkMinimumWith rd k (o.effect.apply a ps) = m.checkMinimum k (o.effect.apply a ps) := by
    intro m
    unfold Manager.checkMinimumWith Manager.checkMinimum
    rw [availableWith_eq hrd h']
  unfold OpSpec.finishWith OpSpec.finish
  rcases w.syncFlushPosition e k (o.effect.apply a ps) with ⟨w', _ | _⟩
  · cases o.sync <;> simp only [halert, applyWith_neg hrd h, Effect.apply_neg]
  · simp only [halert]

variable {kind : ReserveOpType} {w : World} {e : CallEnv} {k : PositionKey} {amount : Decimal} {ref : UUID}
  {refType : String}

theorem opBodyWith_eq (hw : w.Fits)
    (hnext : ∀ ps a, w.mgr.positions k = some ps → toMicro amount = some a → (specOf kind).guard k ps a ref = none →
      ((specOf kind).effect.apply a ps).Fits) :
    opBodyWith rd kind w e k amount ref refType = opBody (specOf kind) w e k amount ref refType := by
  unfold opBodyWith opBody
  cases hps : w.mgr.positions k with
  | none => rfl
  | some ps =>
    have hfits := hw k ps hps
    cases ha : toMicro amount with
    | none => rfl
    | some a =>
      simp only [guardWith_eq hrd hfits]
      cases hg : (specOf kind).guard k ps a ref with
      | some err => rfl
      | none =>
        have hfits' := hnext ps a hps ha hg
        simp only [applyWith_eq hrd hfits', updateWith_eq hrd _ _ _ _ _ _ _ hfits']
        rcases World.logOp _ e k amount ref (specOf kind).op with ⟨w₂, _ | err⟩
        · exact finishWith_eq hrd _ _ _ _ _ hfits hfits'
        · simp only [applyWith_neg hrd hfits, Effect.apply_neg]

end Arithmetic

/-! ## Calls -/

/-- A credit does not take the balance out of the int64 range, and a commitment is not beyond the
range of the treasury. -/
def Bounded (w : World) (s : Step) : Prop :=
  match s.2 with
  | .op .credit k amount ref _ => Admits creditSpec w amount → w.mgr.held ⟨ref, .credit⟩ = false →
      ∀ ps a, w.mgr.positions k = some ps → toMicro amount = some a → ps.balanceMicro + a < 2 ^ 63
  | .op .commit k amount ref _ => Admits commitSpec w amount → w.mgr.held ⟨ref, .commit⟩ = false →
      w.mgr.positions k ≠ none → microInRange amount = true
  | _ => True

instance : ∀ (w : World) (s : Step), Decidable (Bounded w s)
  | w, (_, .op .credit k amount ref _) =>
    decidable_of_iff (Admits creditSpec w amount → w.mgr.held ⟨ref, .credit⟩ = false →
        ∀ ps ∈ w.mgr.positions k, ∀ a ∈ toMicro amount, ps.balanceMicro + a < 2 ^ 63)
      ⟨fun h hadm hfree ps a hps ha => h hadm hfree ps hps a ha, fun h hadm hfree ps hps a ha => h hadm hfree ps a hps ha⟩
  | w, (_, .op .commit k _ _ _) => inferInstanceAs (Decidable (_ → _ → w.mgr.positions k ≠ none → _))
  | _, (_, .op .reserve ..) | _, (_, .op .release ..) | _, (_, .op .consume ..) | _, (_, .op .debit ..)
  | _, (_, .updateBalance ..) => .isTrue trivial

/-- The results of the arithmetic of an operation: what is available, where it asks for it, and the
counters after it. -/
def arithmetic (kind : ReserveOpType) (k : PositionKey) (ps : PositionState) (a : ℤ) (ref : UUID) : List ℤ :=
  let ps' := (specOf kind).effect.apply a ps
  (if kind = .reserve ∨ kind = .debit then [ps.balanceMicro - ps.lockedMicro, ps.available] else []) ++
    if (specOf kind).guard k ps a ref = none then [ps'.balanceMicro, ps'.lockedMicro, ps'.reservedMicro] else []

/-- The exact results of all arithmetic on the counters during a call. -/
def computed (w : World) : Call → List ℤ
  | .op kind k amount ref _ =>
    -- a call that is turned away, or a duplicate, computes nothing
    if Admits (specOf kind) w amount ∧ w.mgr.held ⟨ref, kind⟩ = false then
      match w.mgr.positions k, toMicro amount with
      | some ps, some a => arithmetic kind k ps a ref
      | _, _ => []
    else []
  | .updateBalance k v =>
    match toMicro v, w.mgr.positions k with
    | some _, some ps => [ps.lockedMicro + ps.reservedMicro]
    | _, _ => []

/-- A call whose arithmetic is exact, and that does not panic. -/
def Exact (w : World) (s : Step) : Prop := (∀ x ∈ computed w s.2, InInt64 x) ∧ (w.exec s.1 s.2).2 ≠ .panic

theorem toMicro_le {d : Decimal} {a : ℤ} (h : toMicro d = some a) : a ≤ maxMicroValue := by
  unfold toMicro at h
  split at h
  · rename_i hin
    cases h
    simp only [microInRange, Bool.not_eq_true', Bool.or_eq_false_iff, decide_eq_false_iff_not, not_lt] at hin
    rcases le_total 0 (d * microScale) with h0 | h0
    · rw [intPart_eq_floor h0, Int.floor_le_iff]
      linarith [hin.1]
    · exact (intPart_nonpos h0).trans (by decide)
  · cases h

variable {kind : ReserveOpType} {w w' : World} {e : CallEnv} {k : PositionKey} {amount : Decimal} {ref : UUID}
  {refType : String} {ps : PositionState} {a : ℤ}

theorem PositionState.Fits.apply (h : ps.Fits) (ha : 0 ≤ a) (hg : (specOf kind).guard k ps a ref = none)
    (hcredit : kind = .credit → ps.balanceMicro + a < 2 ^ 63) : ((specOf kind).effect.apply a ps).Fits := by
  obtain ⟨hl, hr, hc, hb⟩ := h
  rw [guard_eq_none] at hg
  constructor <;>
    simp only [specOf_effect, Effect.apply_locked, Effect.apply_reserved, Effect.apply_balance] <;>
    cases kind <;> simp only [PositionState.Allows, PositionState.available] at hg <;> simp at hcredit ⊢ <;> omega

theorem Bounded.next (hb : Bounded w (e, .op kind k amount ref refType)) (hw : w.Fits) (hadm : Admits (specOf kind) w amount)
    (hfree : w.mgr.held ⟨ref, kind⟩ = false) (hps : w.mgr.positions k = some ps) (ha : toMicro amount = some a)
    (hg : (specOf kind).guard k ps a ref = none) : ((specOf kind).effect.apply a ps).Fits := by
  refine (hw k ps hps).apply (toMicro_nonneg ha hadm.1) hg ?_
  rintro rfl
  exact hb hadm hfree ps a hps ha

theorem opBody_panic_iff {o : OpSpec} : (opBody o w e k amount ref refType).2 = .panic ↔
    w.mgr.positions k ≠ none ∧ microInRange amount = false := by
  rcases hb : opBody o w e k amount ref refType with ⟨w', r⟩
  rcases opBody_cases hb with ⟨rfl, -, hout⟩ | ⟨err, rfl, -, -, -, hres⟩ | ⟨ps, a, rfl, -, ha, -⟩
  · refine iff_of_true rfl ⟨fun hnone => ?_, hout⟩
    rw [opBody, hnone] at hb
    cases hb
  · refine iff_of_false (by simp) fun h => ?_
    -- an amount out of range would have panicked
    obtain ⟨ps, hps⟩ := Option.ne_none_iff_exists'.1 h.1
    have hnone : toMicro amount = none := by rw [toMicro, h.2]; rfl
    rw [opBody, hps] at hb
    simp only [hnone] at hb
    cases hb
  · refine iff_of_false (by simp) fun h => ?_
    rw [microInRange_of_toMicro ha] at h
    cases h.2

theorem runOp_panic_iff {o : OpSpec} : (runOp o w e k amount ref refType).2 = .panic ↔
    Admits o w amount ∧ w.mgr.held ⟨ref, o.op⟩ = false ∧ w.mgr.positions k ≠ none ∧ microInRange amount = false := by
  rcases runOp_cases o w e k amount ref refType with ⟨hno, err, heq⟩ | ⟨-, hheld, heq⟩ | ⟨hadm, hheld, heq⟩
  · rw [heq]
    exact iff_of_false nofun fun h => hno h.1
  · rw [heq]
    exact iff_of_false nofun fun h => by rw [hheld] at h; cases h.2.1
  · rw [heq, giveBack_snd, opBody_panic_iff]
    exact ⟨fun h => ⟨hadm, hheld, h⟩, fun h => h.2.2⟩

/-- **While the counters fit, arithmetic on int64 is exact arithmetic.** -/
theorem execWith_exact {rd : ℤ → ℤ} (hrd : ∀ x, InInt64 x → rd x = x) (hw : w.Fits) {s : Step} (hb : Bounded w s) :
    w.execWith rd s.1 s.2 = w.exec s.1 s.2 := by
  obtain ⟨e, c⟩ := s
  cases c with
  | op kind k amount ref refType =>
    rw [exec_eq_runOp, runOp]
    unfold World.execWith runOpWith
    refine checked_congr fun hadm hheld => ?_
    refine opBodyWith_eq hrd (fun k ps hps => hw k ps hps) fun ps a hps ha hg => ?_
    rw [specOf_op] at hheld
    exact hb.next hw hadm hheld hps ha hg
  | updateBalance k v =>
    show w.updateBalanceWith rd k v = w.updateBalance k v
    unfold World.updateBalanceWith World.updateBalance
    cases toMicro v with
    | none => rfl
    | some b =>
      cases hps : w.mgr.positions k with
      | none => rfl
      | some ps =>
        obtain ⟨hl, hr, hc, hlt⟩ := hw k ps hps
        have hsum : rd (ps.lockedMicro + ps.reservedMicro) = ps.lockedMicro + ps.reservedMicro :=
          hrd _ ⟨by omega, by omega⟩
        simp only [hsum]

theorem arithmetic_fits (h : ps.Fits)
    (h' : (specOf kind).guard k ps a ref = none → ((specOf kind).effect.apply a ps).Fits) :
    ∀ x ∈ arithmetic kind k ps a ref, InInt64 x := by
  have hfits : ∀ {ps : PositionState}, ps.Fits → InInt64 ps.balanceMicro ∧ InInt64 ps.lockedMicro ∧
      InInt64 ps.reservedMicro := by
    intro ps h
    obtain ⟨hl, hr, hc, hb⟩ := h
    exact ⟨⟨by omega, by omega⟩, ⟨by omega, by omega⟩, ⟨by omega, by omega⟩⟩
  intro x hx
  rcases mem_append.1 hx with hx | hx
  · obtain ⟨hl, hr, hc, hb⟩ := h
    unfold PositionState.available at hx
    split at hx
    · simp only [mem_cons, not_mem_nil, or_false] at hx
      rcases hx with rfl | rfl <;> exact ⟨by omega, by omega⟩
    · cases hx
  · split at hx
    · rename_i hg
      obtain ⟨hb, hl, hr⟩ := hfits (h' hg)
      simp only [mem_cons, not_mem_nil, or_false] at hx
      rcases hx with rfl | rfl | rfl
      · exact hb
      · exact hl
      · exact hr
    · cases hx

/-- **When all results of a call fit.** -/
theorem exact_iff (hw : w.Fits) (s : Step) : Exact w s ↔ Bounded w s := by
  obtain ⟨e, c⟩ := s
  cases c with
  | op kind k amount ref refType =>
    have hpanic : (w.exec e (.op kind k amount ref refType)).2 = .panic ↔
        Admits (specOf kind) w amount ∧ w.mgr.held ⟨ref, kind⟩ = false ∧ w.mgr.positions k ≠ none ∧
          microInRange amount = false := by
      rw [exec_eq_runOp, runOp_panic_iff, specOf_op]
    constructor
    · rintro ⟨hfit, hno⟩
      cases kind with
      | credit =>
        intro hadm hfree ps a hps ha
        have hcomputed : computed w (.op .credit k amount ref refType) = arithmetic .credit k ps a ref := by
          simp only [computed, show Admits (specOf .credit) w amount from hadm, hfree, hps, ha, and_self, if_true]
        have hsum : ps.balanceMicro + 1 * a ∈ computed w (.op .credit k amount ref refType) := by
          rw [hcomputed]
          exact mem_append_right _ mem_cons_self
        have := (hfit _ hsum).2
        omega
      | commit =>
        intro hadm hfree hsome
        by_contra hout
        exact hno (hpanic.2 ⟨hadm, hfree, hsome, Bool.eq_false_iff.2 hout⟩)
      | reserve | release | consume | debit => trivial
    · intro hb
      constructor
      · intro x hx
        simp only [computed] at hx
        split at hx
        · rename_i hrun
          split at hx
          · rename_i ps a hps ha
            exact arithmetic_fits (hw k ps hps) (fun hg => hb.next hw hrun.1 hrun.2 hps ha hg) x hx
          · cases hx
        · cases hx
      · intro hp
        obtain ⟨hadm, hfree, hsome, hout⟩ := hpanic.1 hp
        -- only a commitment does not check the range
        have hin : microInRange amount = true := by
          cases kind with
          | commit => exact hb hadm hfree hsome
          | reserve | release | consume | credit | debit => exact hadm.2.1 rfl
        rw [hin] at hout
        cases hout
  | updateBalance k v =>
    refine iff_of_true ⟨?_, ?_⟩ trivial
    · intro x hx
      simp only [computed] at hx
      split at hx
      · rename_i ps _ hps
        obtain ⟨hl, hr, hc, hb⟩ := hw k _ hps
        rw [mem_singleton] at hx
        exact ⟨by omega, by omega⟩
      · cases hx
    · intro hp
      rcases hu : w.updateBalance k v with ⟨w', r⟩
      have hr : r = .panic := by
        rw [← show (w.exec e (.updateBalance k v)).2 = r from congrArg Prod.snd hu]
        exact hp
      rcases updateBalance_cases hu with ⟨-, err, herr⟩ | ⟨_, _, hnil, -⟩
      · cases herr.symm.trans hr
      · cases hnil.symm.trans hr

theorem World.Fits.update (hw : w.Fits) (hps : ps.Fits)
    (h : w'.mgr.positions = Function.update w.mgr.positions k (some ps)) : w'.Fits := by
  intro k' ps' hps'
  rcases Manager.position_update h hps' with ⟨-, rfl⟩ | ⟨-, hold⟩
  · exact hps
  · exact hw k' ps' hold

theorem World.Fits.exec (hw : w.Fits) {s : Step} (hb : Bounded w s) : (w.exec s.1 s.2).1.Fits := by
  obtain ⟨e, c⟩ := s
  cases c with
  | op kind k amount ref refType =>
    rw [exec_eq_runOp]
    rcases runOp_positions (specOf kind) w e k amount ref (kind.refType refType) with
      heq | ⟨hadm, hfree, ps, a, hps, ha, hg, heq⟩
    · intro k' ps' hps'
      rw [heq] at hps'
      exact hw k' ps' hps'
    · rw [specOf_op] at hfree
      exact hw.update (hb.next hw hadm hfree hps ha hg) heq
  | updateBalance k v =>
    show World.Fits (w.updateBalance k v).1
    rcases hu : w.updateBalance k v with ⟨w', r⟩
    rcases updateBalance_cases hu with ⟨rfl, -⟩ | ⟨ps, b, -, hv, hps, hle, rfl⟩
    · exact hw
    · obtain ⟨hl, hr, -, -⟩ := hw k ps hps
      have hb := toMicro_le hv
      have hfits : PositionState.Fits { ps with balanceMicro := b } := ⟨hl, hr, hle, lt_of_le_of_lt hb (by decide)⟩
      exact hw.update hfits rfl

/-! ## Runs -/

def World.after64 (w : World) (steps : List Step) : World := run (fun w s => (w.exec64 s.1 s.2).1) w steps

/-- **The counters never wrap and no call panics exactly in the runs of bounded calls**; these are
exact. -/
theorem exact_run_iff (w : World) (hw : w.Fits) (steps : List Step) :
    (Along (fun w s => (w.exec s.1 s.2).1) Exact w steps ↔ Along (fun w s => (w.exec s.1 s.2).1) Bounded w steps) ∧
      (Along (fun w s => (w.exec s.1 s.2).1) Bounded w steps → w.after64 steps = w.after steps) := by
  refine ⟨along_congr (P := World.Fits) (fun _ s hw => exact_iff hw s)
    (fun _ s hw hs => hw.exec ((exact_iff hw s).1 hs)) hw steps, ?_⟩
  induction steps generalizing w with
  | nil => exact fun _ => rfl
  | cons s steps ih =>
    rintro ⟨hb, hrest⟩
    have hstep : w.exec64 s.1 s.2 = w.exec s.1 s.2 := execWith_exact (fun _ => wrap64_eq) hw hb
    show World.after64 (w.exec64 s.1 s.2).1 steps = World.after (w.exec s.1 s.2).1 steps
    rw [hstep]
    exact ih _ (hw.exec hb) hrest

theorem single_fits (h : ps.Fits) : (single k ps).Fits := by
  intro k' ps' hps'
  simp only [single] at hps'
  split at hps'
  · cases hps'
    exact h
  · cases hps'

theorem lifecycle_exact :
    (Along (fun w s => (w.exec s.1 s.2).1) Exact (single usdPosition ⟨1, 0, 100000000, 20000000, 0⟩) lifecycle ↔
      Along (fun w s => (w.exec s.1 s.2).1) Bounded (single usdPosition ⟨1, 0, 100000000, 20000000, 0⟩) lifecycle) ∧
    (Along (fun w s => (w.exec s.1 s.2).1) Bounded (single usdPosition ⟨1, 0, 100000000, 20000000, 0⟩) lifecycle →
      (single usdPosition ⟨1, 0, 100000000, 20000000, 0⟩).after64 lifecycle =
        (single usdPosition ⟨1, 0, 100000000, 20000000, 0⟩).after lifecycle) :=
  exact_run_iff _ (single_fits ⟨by decide, by decide, by decide, by decide⟩) lifecycle

def largestCredit (ref : UUID) : Call := .op .credit usdPosition 9000000000000 ref "deposit"

/-- **Two credits are accepted and leave a negative balance; a commitment panics.** -/
theorem credits_wrap :
    let e : CallEnv := ⟨0, .ok, true, .ok⟩
    let w := single usdPosition ⟨1, 0, 0, 0, 0⟩
    (w.exec64 e (largestCredit 1)).2 = .nil ∧
    ((w.exec64 e (largestCredit 1)).1.exec64 e (largestCredit 2)).2 = .nil ∧
    (w.after64 [(e, largestCredit 1), (e, largestCredit 2)]).mgr.positions usdPosition =
      some ⟨1, 0, -446744073709551616, 0, 0⟩ ∧
    (w.exec64 e (.op .commit usdPosition 10000000000000 3 "")).2 = .panic := by
  decide +kernel

end Settla.Treasury
