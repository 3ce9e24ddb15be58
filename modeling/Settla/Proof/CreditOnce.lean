import Settla.Node.DepositWorker
import Settla.Node.Messaging
import Settla.Proof.Balance
import Settla.Proof.Deposit
import Settla.Proof.Restart

/-!
# Crediting a deposit at most once

What keeps a second delivery from crediting again is the idempotency key in the memory of the treasury.
It is gone after a restart and after ten minutes, and the circuit breaker comes before it. A session
that fails is not always one that was not credited.
-/

namespace Settla.Treasury

open Lib

/-- The balance of `k` is at `level` in memory, and there or still at `base` in its row. -/
structure Stands (k : PositionKey) (base level : ℤ) (w : World) : Prop where
  linked : Linked w.mgr w.db
  memory : ∀ v ∈ w.mgr.balanceAt k, v = level
  rows : ∀ row ∈ w.db.positions, row.key = k → ∀ b ∈ toMicro row.balance, b = base ∨ b = level

variable {k : PositionKey} {base level : ℤ} {w w' : World}

theorem read_back {v b : ℤ} (h : toMicro (numeric8 (fromMicro v)) = some b) : b = v := by
  have hscale : fromMicro v * (microScale : ℚ) = v := by
    simp only [fromMicro, microScale]
    push_cast
    ring
  rw [numeric8_fromMicro, toMicro] at h
  split at h
  · rw [hscale, intPart_intCast] at h
    exact (Option.some.inj h).symm
  · cases h

theorem Stands.drift (h : Stands k base level w) (hlinked : Linked w'.mgr w'.db)
    (hdrift : Drift k (w'.mgr.balanceAt k) w.db w'.db) {level' : ℤ} (hmem : ∀ v ∈ w'.mgr.balanceAt k, v = level')
    (hlevel : level = base ∨ level = level') : Stands k base level' w' := by
  refine ⟨hlinked, hmem, fun row' hrow' hk b hb => ?_⟩
  rcases hdrift.rows row' hrow' hk with ⟨row, hrow, hk', hsame⟩ | ⟨v, hv, hsame⟩
  · rcases h.rows row hrow hk' b (hsame ▸ hb) with hbase | hlast
    · exact .inl hbase
    · rcases hlevel with hlevel | hlevel
      · exact .inl (hlast.trans hlevel)
      · exact .inr (hlast.trans hlevel)
  · rw [hsame] at hb
    exact .inr ((read_back hb).trans (hmem v hv))

theorem Stands.quiet (h : Stands k base level w) (hlinked : Linked w'.mgr w'.db)
    (hdrift : Drift k (w.mgr.balanceAt k) w.db w'.db) (hbalance : w'.mgr.balanceAt k = w.mgr.balanceAt k) :
    Stands k base level w' :=
  h.drift hlinked (hbalance ▸ hdrift) (fun v hv => h.memory v (hbalance ▸ hv)) (.inr rfl)

/-- **After a restart** the balance is the one of the row. -/
theorem Stands.restart (h : Stands k base level w) {e : LoadEnv} (hload : w.crash.loadPositions e = some w') :
    ∃ level', (level' = base ∨ level' = level) ∧ Stands k base level' w' := by
  obtain ⟨hlinked, hdrift, hfrom, hfound⟩ := loadPositions_balance (k := k) hload h.linked.keys h.linked.ids
  cases hbal : w'.mgr.balanceAt k with
  | none =>
    -- the position has no row, before and after
    refine ⟨base, .inl rfl, hlinked, by simp [hbal], fun row' hrow' hk => ?_⟩
    rcases hdrift.rows row' hrow' hk with ⟨row, hrow, hk', -⟩ | ⟨v, hv, -⟩
    · have hsome := hfound row hrow hk'
      rw [hbal] at hsome
      cases hsome
    · rw [hbal] at hv
      cases hv
  | some v =>
    obtain ⟨row, hrow, hk, hv⟩ := hfrom v hbal
    refine ⟨v, h.rows row hrow hk v hv, hlinked, ?_, fun row' hrow' hk' b hb => .inr ?_⟩
    · intro v' hv'
      rw [hbal] at hv'
      exact (Option.some.inj hv').symm
    · rcases hdrift.rows row' hrow' hk' with ⟨row₀, hrow₀, hk₀, hsame⟩ | ⟨v', hv', hsame⟩
      · rw [h.linked.row_eq hrow₀ hrow (hk₀.trans hk.symm)] at hsame
        rw [Option.mem_def, ← hsame, hv] at hb
        exact (Option.some.inj hb).symm
      · rw [hsame] at hb
        rw [hbal] at hv'
        exact (read_back hb).trans (Option.some.inj hv').symm

/-- **A credit** is a duplicate, raises the balance, or fails and leaves the balance alone. -/
theorem Stands.credit {e : CallEnv} {amount : Decimal} {ref : UUID} {r : Result} (h : Stands k base level w)
    (hout : Outcome (specOf .credit) w e k amount ref w' r)
    (hkey : level = base ∨ w.mgr.held ⟨ref, .credit⟩ = true)
    (hflush : w.mgr.isLarge k.currency amount = true → e.flush ≠ .errKept) :
    (r = .nil ∧ w' = w) ∨
    (r = .nil ∧ 0 < amount ∧ ∃ a, toMicro amount = some a ∧ Stands k base (base + a) w') ∨
    (∃ err, r = .err err ∧ Stands k base level w' ∧ (level = base ∨ ¬ 0 < amount ∨ microInRange amount = false ∨
      Manager.maxFlushFailuresBeforeReject ≤ w.mgr.consecutiveFlushFailures)) := by
  -- beyond the key the position has not been credited
  have hfresh : w.mgr.held ⟨ref, .credit⟩ = false → level = base := by
    intro hfree
    rcases hkey with hbase | hheld
    · exact hbase
    · rw [hfree] at hheld
      cases hheld
  cases hout with
  | rejected why =>
    refine .inr (.inr ⟨_, rfl, h, .inr ?_⟩)
    rcases why with hneg | ⟨-, hrange⟩ | ⟨-, hopen⟩
    · exact .inl hneg
    · exact .inr (.inl hrange)
    · exact .inr (.inr hopen)
  | duplicate _ => exact .inl ⟨rfl, rfl⟩
  | panicked _ hcheck _ => cases hcheck
  | failed hheld hpos _ _ hres =>
    have hdrift := residue_drift (k := k) h.linked (fun ps a _ hkept hlarge => absurd hkept (hflush hlarge)) hres
    refine .inr (.inr ⟨_, rfl, ?_, .inl (hfresh hheld)⟩)
    exact h.quiet ((h.linked.memory hpos).rows hdrift.identities) hdrift (balanceAt_congr hpos)
  | @applied _ ps a hheld _ hamount ha hps _ hpos _ _ hper =>
    have hbase := hfresh hheld
    obtain ⟨hlinked, hdrift⟩ := persist_drift (k := k) h.linked hps hpos hper
    refine .inr (.inl ⟨rfl, hamount, a, ha, h.drift hlinked hdrift (fun v hv => ?_) (.inl hbase)⟩)
    rw [Manager.balanceAt, hpos, Function.update_self] at hv
    have hbefore := h.memory ps.balanceMicro (by rw [Manager.balanceAt, hps]; rfl)
    have hv' := Option.some.inj hv
    simp only [specOf, creditSpec, Effect.apply, one_mul] at hv'
    rw [← hv', hbefore, hbase]

end Settla.Treasury

namespace Settla.Node

open Settla.Core Settla.Treasury Lib

variable (text : Err → String) (p : CreditDepositPayload) (base : ℤ)

/-- The credit is neither in memory nor in the table. -/
def CreditNode.uncredited (s : CreditNode) : Prop :=
  (∀ v ∈ s.treasury.mgr.balanceAt (creditPosition p), v = base) ∧
    ∀ row ∈ s.treasury.db.positions, row.key = creditPosition p → toMicro row.balance = some base

instance (s : CreditNode) : Decidable (s.uncredited p base) := inferInstanceAs (Decidable (_ ∧ _))

/-- The key of the credit is held, and the circuit breaker lets calls get to it. -/
def CreditNode.protected (s : CreditNode) : Bool :=
  s.treasury.mgr.held ⟨p.sessionID, .credit⟩ &&
    decide (s.treasury.mgr.consecutiveFlushFailures < Manager.maxFlushFailuresBeforeReject)

/-- A delivery after the credit meets the key; a session that has failed gets no further delivery,
and a credited one is not failed by another call; no synchronous flush is kept and reported as an
error; and nothing else moves the balance. -/
def CreditNode.Guarded (s : CreditNode) : CreditStep → Prop
  | .deliver e _ =>
    (s.uncredited p base ∨ s.protected p = true) ∧ s.session.row.status ≠ .failed ∧
      (s.treasury.mgr.isLarge (creditPosition p).currency p.netAmount = true → e.flush ≠ .errKept)
  | .call c _ => c.call.fails = true → s.uncredited p base
  | .operate _ kind k _ _ _ => k ≠ creditPosition p ∨ (specOf kind).effect.balance = 0
  | .flush _ | .cleanup _ | .restart _ => True

instance (s : CreditNode) (a : CreditStep) : Decidable (s.Guarded p base a) := by
  cases a <;> unfold CreditNode.Guarded <;> infer_instance

/-- The balance is as before, or it was raised by the net amount and the session has not
failed. -/
structure CreditNode.Sound (s : CreditNode) (level : ℤ) : Prop where
  stands : Stands (creditPosition p) base level s.treasury
  credited : level = base ∨
    0 < p.netAmount ∧ toMicro p.netAmount = some (level - base) ∧ s.session.row.status ≠ .failed

variable {text p base} {s : CreditNode} {level : ℤ}

theorem CreditNode.uncredited.sound (h : s.uncredited p base) (hlinked : Linked s.treasury.mgr s.treasury.db) :
    s.Sound p base base := by
  refine ⟨⟨hlinked, h.1, fun row hrow hk b hb => ?_⟩, .inl rfl⟩
  have hrow := h.2 row hrow hk
  rw [hrow] at hb
  exact .inl (Option.some.inj hb).symm

theorem CreditNode.Sound.treasury (h : s.Sound p base level) {s' : CreditNode} (hsession : s'.session = s.session)
    (hstands : Stands (creditPosition p) base level s'.treasury) : s'.Sound p base level :=
  ⟨hstands, hsession ▸ h.credited⟩

theorem CreditNode.Sound.deliver (h : s.Sound p base level) {e : CallEnv} {as : List SessionAnswer}
    (hok : s.Guarded p base (.deliver e as)) :
    ∃ level', (CreditNode.Sound p base { s with
      treasury := (handleCreditResult text p s.treasury s.session e as).1
      session := (handleCreditResult text p s.treasury s.session e as).2 } level') := by
  obtain ⟨hkey, hunfailed, hflush⟩ := hok
  -- the level is the base, or the key protects it
  obtain ⟨level, h, hkey⟩ : ∃ level, s.Sound p base level ∧ (level = base ∨ s.protected p = true) := by
    rcases hkey with hun | hprot
    · exact ⟨base, hun.sound h.stands.linked, .inl rfl⟩
    · exact ⟨level, h, .inr hprot⟩
  unfold handleCreditResult
  rcases hrun : s.treasury.creditBalance e (creditPosition p) p.netAmount p.sessionID "deposit_session" with ⟨w', r⟩
  have hout : Outcome (specOf .credit) s.treasury e (creditPosition p) p.netAmount p.sessionID w' r := runOp_outcome hrun
  have hheld : level = base ∨ s.treasury.mgr.held ⟨p.sessionID, .credit⟩ = true := by
    refine hkey.imp_right fun hprot => ?_
    rw [CreditNode.protected, Bool.and_eq_true] at hprot
    exact hprot.1
  have hsuccess : ((Deposit.handleCreditResult p.tenantID { success := true }).exec as s.session).1.row.status ≠ .failed :=
    Deposit.exec_unfailed (c := ⟨p.tenantID, .handleCreditResult { success := true }⟩) rfl hunfailed as
  rcases h.stands.credit hout hheld hflush with ⟨rfl, rfl⟩ | ⟨rfl, hamount, a, ha, hstands⟩ | ⟨err, rfl, hstands, hwhy⟩
  · refine ⟨level, h.stands, h.credited.imp_right fun hcredited => ?_⟩
    exact ⟨hcredited.1, hcredited.2.1, hsuccess⟩
  · refine ⟨base + a, hstands, .inr ⟨hamount, ?_, hsuccess⟩⟩
    rw [ha, add_sub_cancel_left]
  · refine ⟨level, hstands, .inl ?_⟩
    -- a call that fails was not protected
    rcases h.credited with hbase | ⟨hpos, hmicro, -⟩
    · exact hbase
    rcases hkey with hbase | hprot
    · exact hbase
    rcases hwhy with hbase | hneg | hrange | hopen
    · exact hbase
    · exact absurd hpos hneg
    · rw [toMicro, if_neg (by simp [hrange])] at hmicro
      cases hmicro
    · simp only [CreditNode.protected, Bool.and_eq_true, decide_eq_true_eq] at hprot
      omega

theorem CreditNode.Sound.step (h : ∃ level, s.Sound p base level) {a : CreditStep} (hok : s.Guarded p base a) :
    ∃ level, (s.step text p a).Sound p base level := by
  obtain ⟨level, h⟩ := h
  unfold CreditNode.step
  cases a with
  | deliver e as =>
    dsimp only
    split
    · exact h.deliver hok
    · exact ⟨level, h⟩
  | call c as =>
    dsimp only
    split
    · cases hfails : c.call.fails with
      | true => exact ⟨base, ((hok hfails).sound h.stands.linked).stands, .inl rfl⟩
      | false =>
        refine ⟨level, h.stands, h.credited.imp_right fun hcredited => ?_⟩
        exact ⟨hcredited.1, hcredited.2.1, Deposit.exec_unfailed hfails hcredited.2.2 as⟩
    · exact ⟨level, h⟩
  | operate e kind k amount reference refType =>
    dsimp only
    split
    · obtain ⟨hlinked, hdrift, hbalance⟩ := exec_drift (k := creditPosition p) h.stands.linked e k amount reference
        refType hok
      exact ⟨level, h.treasury rfl (h.stands.quiet hlinked hdrift hbalance)⟩
    · exact ⟨level, h⟩
  | flush e =>
    dsimp only
    split
    · obtain ⟨hlinked, hdrift, hbalance⟩ := flushOnce_drift (k := creditPosition p) h.stands.linked e
      exact ⟨level, h.treasury rfl (h.stands.quiet hlinked hdrift hbalance)⟩
    · exact ⟨level, h⟩
  | cleanup now =>
    dsimp only
    split
    · exact ⟨level, h.treasury rfl (h.stands.quiet (h.stands.linked.memory rfl) (.refl _) rfl)⟩
    · exact ⟨level, h⟩
  | restart e =>
    dsimp only
    split
    · rename_i w hload
      obtain ⟨level', hlevel, hstands⟩ := h.stands.restart hload
      rcases hlevel with rfl | rfl
      · exact ⟨level', hstands, .inl rfl⟩
      · exact ⟨level', h.treasury rfl hstands⟩
    · exact ⟨level, h.treasury rfl ⟨⟨h.stands.linked.keys, h.stands.linked.ids, nofun⟩, nofun, h.stands.rows⟩⟩

/-- **A deposit is credited at most once**, and not if its session is FAILED, in every run of
guarded steps. -/
theorem credited_at_most_once (text : Err → String) (p : CreditDepositPayload) (base : ℤ) (s : CreditNode)
    (hlinked : Linked s.treasury.mgr s.treasury.db) (hbase : s.uncredited p base) (steps : List CreditStep)
    (hok : Along (CreditNode.step text p) (CreditNode.Guarded p base) s steps) :
    let s' := run (CreditNode.step text p) s steps
    (∀ v ∈ s'.treasury.mgr.balanceAt (creditPosition p), v = base ∨ v = base + (toMicro p.netAmount).getD 0) ∧
      (s'.session.row.status = .failed → ∀ v ∈ s'.treasury.mgr.balanceAt (creditPosition p), v = base) := by
  intro s'
  have hrun : ∃ level, s'.Sound p base level :=
    run_preserves (P := fun s => ∃ level, s.Sound p base level) (fun _ _ h ha => CreditNode.Sound.step h ha)
      ⟨base, hbase.sound hlinked⟩ hok
  obtain ⟨level, hstands, hcredited⟩ := hrun
  refine ⟨fun v hv => ?_, fun hfailed v hv => ?_⟩
  · rw [hstands.memory v hv]
    refine hcredited.imp_right fun h => ?_
    rw [h.2.1, Option.getD_some]
    ring
  · rw [hstands.memory v hv]
    rcases hcredited with hbase | ⟨-, -, hunfailed⟩
    · exact hbase
    · exact absurd hfailed hunfailed

def usdtCredit : CreditDepositPayload := ⟨7, 1, "tron", "usdt", 41, 1, 40, "tx", "credit:7"⟩

def usdtNode (pref : SettlementPreference) : CreditNode where
  up := false
  treasury := ⟨newManager, ⟨[⟨10, creditPosition usdtCredit, 100, 0, 0⟩], []⟩⟩
  session :=
    { row := { Deposit.sampleSession with status := .crediting, receivedAmount := 41, settlementPref := pref }
      txs := []
      outbox := [] }

def deliverAt (now : Time) (as : List SessionAnswer) : CreditStep := .deliver ⟨now, .ok, true, .ok⟩ as

def answered : List SessionAnswer := List.replicate 5 {}

def unanswered : List SessionAnswer := [{ reply := .error }]

theorem credited_at_most_once_flushed :
    let steps : List CreditStep := [.restart quietLoad, deliverAt 0 unanswered, deliverAt second answered,
      .flush ⟨[], true, [.ok]⟩, .restart quietLoad]
    let s' := run (CreditNode.step (fun _ => "") usdtCredit) (usdtNode .hold) steps
    s'.session.row.status = .held ∧
      ∀ v ∈ s'.treasury.mgr.balanceAt (creditPosition usdtCredit), v = 100000000 ∨ v = 140000000 := by
  refine ⟨by decide +kernel, ?_⟩
  have hnet : (toMicro usdtCredit.netAmount).getD 0 = 40000000 := by decide +kernel
  have hsteps := credited_at_most_once (fun _ => "") usdtCredit 100000000 (usdtNode .hold)
    ⟨by decide +kernel, by decide +kernel, nofun⟩ (by decide +kernel)
    [.restart quietLoad, deliverAt 0 unanswered, deliverAt second answered, .flush ⟨[], true, [.ok]⟩, .restart quietLoad]
    (by decide +kernel)
  rw [hnet] at hsteps
  exact hsteps.1

/-- **A deposit is credited twice, or credited and FAILED.** The engine could not be told of the
first credit, so the intent is delivered again: (1) after a restart, which has no key; (2) when the
key is more than ten minutes old; (3) while the circuit breaker is open, which the worker takes for
a credit that failed. (4) A credited session fails when its settlement does. -/
theorem credit_repeated :
    let outcome (pref : SettlementPreference) (steps : List CreditStep) :=
      let s := run (CreditNode.step (fun _ => "") usdtCredit) (usdtNode pref) (.restart quietLoad :: steps)
      (s.treasury.mgr.balanceAt (creditPosition usdtCredit), s.session.row.status)
    outcome .hold [deliverAt 0 unanswered, .flush ⟨[], true, [.ok]⟩, .restart quietLoad, deliverAt second answered] =
        (some 180000000, .held) ∧
      (deliveryTimes 0).length = maxRetries ∧
      outcome .hold ((deliveryTimes 0).dropLast.map (deliverAt · unanswered) ++
          [.cleanup (755 * second), deliverAt (756 * second) answered]) = (some 180000000, .held) ∧
      (deliveryTimes 0).getLast? = some (756 * second) ∧
      outcome .hold ([deliverAt 0 unanswered] ++ List.replicate 3 (.flush ⟨[], true, [.err]⟩) ++
          [deliverAt second answered]) = (some 140000000, .failed) ∧
      outcome .autoConvert [deliverAt 0 answered, .call ⟨1, .handleSettlementResult { success := false }⟩ answered] =
        (some 140000000, .failed) := by
  decide +kernel

end Settla.Node
