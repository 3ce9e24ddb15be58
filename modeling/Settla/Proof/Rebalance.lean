import Settla.Lib.Groups
import Settla.Node.Rebalance
import Settla.Proof.Overflow
import Settla.Proof.Window

/-!
# Money moved by rebalancing

A move is two intents that are executed independently. If one takes effect and the other does not, or was
never created, money of the tenant has disappeared or appeared. So it may if calls of the treasury on one position
overlap, or a sum does not fit into an int64.
-/

namespace Settla.Rebalance

open Treasury Position Lib Lib.Threads List Function

-- the instances for bit vectors would go through all UUIDs
local instance (o : Option UUID) (P : UUID → Prop) [DecidablePred P] : Decidable (∃ t ∈ o, P t) := Option.decidableExistsMem o

local instance (o : Option UUID) (P : UUID → Prop) [DecidablePred P] : Decidable (∀ t ∈ o, P t) := Option.decidableForallMem o

local instance uuid_lawful : LawfulBEq UUID := inferInstance

/-! ## Balances and moves -/

def total (s : Desk) (tenantID : UUID) (c : Currency) : ℤ :=
  (((s.tenantIndex tenantID).filter (·.currency = c)).map (balanceOf s.treasury)).sum

def Desk.Pending (s : Desk) (id : UUID) : Prop := ∃ i ∈ s.db.outbox, i.reference = id

/-- The intent has taken effect, or does so now. -/
def Takes (s : Desk) (e : CallEnv) (i : PositionIntent) : Prop :=
  i.reference ∈ s.applied ∨ s.treasury.mgr.held ⟨i.reference, opOf i.type⟩ = false ∧
    Effective (specOf (opOf i.type)) s.treasury e (keyOf i) i.amount i.reference

/-- An intent that has taken effect finds its key when it comes again. The last one of its move that
is acknowledged takes effect exactly if the other one has; a withdrawal without a top-up does not. -/
structure InStep (s : Desk) (a : Answer) (i : PositionIntent) : Prop where
  once : i.reference ∈ s.applied → s.treasury.mgr.held ⟨i.reference, opOf i.type⟩ = true
  withdrawal : a.reply = .ok → ∀ p ∈ s.pairs, p.withdrawal = i.reference → (∀ t ∈ p.topUp, ¬ s.Pending t) →
    (Takes s a.call i ↔ ∃ t ∈ p.topUp, t ∈ s.applied)
  topUp : a.reply = .ok → ∀ p ∈ s.pairs, p.topUp = some i.reference → ¬ s.Pending p.withdrawal →
    (Takes s a.call i ↔ p.withdrawal ∈ s.applied)

/-- No other call on the position overlaps, and no sum leaves the int64 range. -/
def Alone (w : World) (a : Answer) (st : Treasury.Step) : Prop := a.overlap = none ∧ Bounded w st

/-- All calls of the treasury are alone, and the deliveries of a move in step. -/
def InOrder (s : Desk) (a : Answer) : Point → Prop
  | .deliver reference => ∀ x ∈ s.db.outbox.find? (·.reference = reference),
    Alone s.treasury a (a.call, callOf x) ∧ InStep s a x
  | .activity (.call e c) => Alone s.treasury a (e, c)
  | _ => True

/-- A new transaction gets a new UUID. -/
def TakesNewID (s : Desk) (a : Answer) : Point → Prop
  | .withdraw _ _ _ _ => ∀ p ∈ s.pairs, a.id ∉ p.ids
  | .topUp _ _ _ _ _ => ∀ p ∈ s.pairs, a.id ∉ p.ids
  | _ => True

def AtSteps (ok : Desk → Answer → Point → Prop) (s : Desk) (ps : List (Pos Point Unit)) : Action Task Answer → Prop
  | .step i a => ∀ q ∈ ps[i]?, ∀ g ∈ q.label?, ok s a g
  | _ => True

/-- What a step adds to the balances of a tenant, if it is none of the rebalancing. -/
def otherChange (tenantID : UUID) (c : Currency) (s : Shop) : Action Task Answer → ℤ
  | .step i a =>
    match s.positions[i]? with
    | some (.before (.activity _)) => total (s.act program (.step i a)).state tenantID c - total s.state tenantID c
    | _ => 0
  | _ => 0

/-! ## What the steps do -/

/-- The two positions of a move have one currency, and between its requests the withdrawal has no
top-up yet. -/
def Known (pairs : List Pair) : Point → Prop
  | .withdraw _ source dest _ => source.currency = dest.currency
  | .topUp tenantID w _ dest amount => ∃ p ∈ pairs, p.withdrawal = w ∧ p.topUp = none ∧ p.tenantID = tenantID ∧
    p.currency = dest.currency ∧ p.amount = amount
  | _ => True

/-- The withdrawal for which a goroutine is about to request the top-up. -/
def topping : Pos Point Unit → Option UUID
  | .before (.topUp _ w _ _ _) => some w
  | _ => none

/-- A goroutine goes on with something else than a top-up. -/
def Plain (q : Pos Point Unit) : Prop := topping q = none ∧ ∀ g ∈ q.label?, Known [] g

/-- The effect of a step, and what comes next. -/
def Does (g : Point) (a : Answer) (s s' : Desk) (q : Pos Point Unit) : Prop :=
  s' = g.effect a s ∧
    (Plain q ∨ ∃ t source dest amount, g = .withdraw t source dest amount ∧
      (s.withdraw a t source dest amount).2 = true ∧ q = .before (.topUp t a.id source dest amount))

variable {s s' : Desk} {a : Answer} {g : Point} {q : Pos Point Unit} {ps : List (Pos Point Unit)} {p : Pair}
  {i : PositionIntent} {tenantID : UUID} {c : Currency}

variable {pairs : List Pair} {S : Shop} {reference : UUID} {x : ℤ}

theorem step_follows {k : Answer → Desk → Steps} (hk : ∀ a s, (k a s).Follows Does ∧ Plain (k a s).pos) :
    (step g k).Follows Does :=
  fun a s => ⟨⟨rfl, .inl (hk a s).2⟩, (hk a s).1⟩

theorem plain_returned : Plain (.returned ()) := ⟨rfl, fun _ hg => nomatch hg⟩

theorem triggerRebalance_follows {source dest : Position} {amount : Decimal} {k : Steps}
    (hk : k.Follows Does) (hplain : Plain k.pos) : (triggerRebalance tenantID source dest amount k).Follows Does := by
  intro a s
  dsimp only
  split
  · rename_i hok
    refine ⟨⟨rfl, .inr ⟨tenantID, source, dest, amount, rfl, hok, rfl⟩⟩, step_follows fun b s => ?_⟩
    split
    · exact ⟨step_follows fun _ _ => ⟨hk, hplain⟩, rfl, fun g hg => by cases hg; trivial⟩
    · exact ⟨hk, hplain⟩
  · exact ⟨⟨rfl, .inl hplain⟩, hk⟩

variable {positions : List Position} {id : UUID} {db : PositionDB} {pairs' : List Pair} {act : Action Task Answer}

theorem checkPositions_follows {k : Steps} (hk : k.Follows Does) (hplain : Plain k.pos)
    (rest : List Position) : (checkPositions tenantID positions k rest).Follows Does ∧
      Plain (checkPositions tenantID positions k rest).pos := by
  induction rest with
  | nil => exact ⟨hk, hplain⟩
  | cons pos rest ih =>
    unfold checkPositions
    split
    · exact ih
    · refine ⟨step_follows fun a s => ?_, rfl, fun g hg => by cases hg; trivial⟩
      split
      · exact ih
      · split
        · rename_i source hsource
          have hsame := List.find?_some hsource
          simp only [decide_eq_true_eq] at hsame
          exact ⟨triggerRebalance_follows ih.1 ih.2, rfl, fun g hg => by cases hg; exact hsame.2.2.1⟩
        · exact ⟨step_follows fun _ _ => ih, rfl, fun g hg => by cases hg; trivial⟩

theorem runCycle_follows (tenantIDs : List UUID) : (runCycle tenantIDs).Follows Does ∧ Plain (runCycle tenantIDs).pos := by
  induction tenantIDs with
  | nil => exact ⟨step_follows fun _ _ => ⟨trivial, plain_returned⟩, rfl, fun g hg => by cases hg; trivial⟩
  | cons tenantID rest ih =>
    refine ⟨step_follows fun a s => ?_, rfl, fun g hg => by cases hg; trivial⟩
    split
    · exact checkPositions_follows ih.1 ih.2 _
    · exact ih

theorem program_follows (t : Task) : (program t).Follows Does ∧ Plain (program t).pos := by
  cases t with
  | cycle tenantIDs => exact runCycle_follows tenantIDs
  | deliver | result | activity =>
    exact ⟨step_follows fun _ _ => ⟨trivial, plain_returned⟩, rfl, fun g hg => by cases hg; trivial⟩

/-! ## The treasury -/

def Covers (w : World) : Prop := ∀ k m, w.mgr.positions k = some m → m.lockedMicro + m.reservedMicro ≤ m.balanceMicro

/-- The index lists the positions of each tenant. -/
structure Indexed (s : Desk) : Prop where
  nodup : ∀ t, (s.tenantIndex t).Nodup
  tenant : ∀ t, ∀ k ∈ s.tenantIndex t, k.tenantID = t
  complete : ∀ k m, s.treasury.mgr.positions k = some m → k ∈ s.tenantIndex k.tenantID

def SameSupport (w w' : World) : Prop := ∀ k m', w'.mgr.positions k = some m' → ∃ m, w.mgr.positions k = some m

variable {w w' : World} {k : PositionKey} {m m' : PositionState}

theorem support_update (hm : w.mgr.positions k = some m) (h : w'.mgr.positions = update w.mgr.positions k (some m')) :
    SameSupport w w' := by
  intro k' m'' hm''
  rcases Manager.position_update h hm'' with ⟨rfl, -⟩ | ⟨-, hold⟩
  · exact ⟨m, hm⟩
  · exact ⟨m'', hold⟩

theorem support_same (h : w'.mgr.positions = w.mgr.positions) : SameSupport w w' :=
  fun k m hm => ⟨m, by rw [← h]; exact hm⟩

theorem callTreasury_eq (hw : w.Fits) {e : CallEnv} {c : Call} (h : Alone w a (e, c)) :
    callTreasury w a e c = (w.exec e c).1 := by
  unfold callTreasury World.exec64
  rw [execWith_exact (fun _ => wrap64_eq) hw h.2, h.1]

theorem exec_support (w : World) (e : CallEnv) (c : Call) : SameSupport w (w.exec e c).1 := by
  cases c with
  | op kind k amount ref refType =>
    rw [exec_eq_runOp]
    rcases runOp_positions (specOf kind) w e k amount ref (kind.refType refType) with
      hsame | ⟨-, -, m, x, hm, -, -, hpos⟩
    · exact support_same hsame
    · exact support_update hm hpos
  | updateBalance k v =>
    show SameSupport w (w.updateBalance k v).1
    rcases hu : w.updateBalance k v with ⟨w', r⟩
    rcases updateBalance_cases hu with ⟨rfl, -⟩ | ⟨m, b, -, -, hm, -, rfl⟩
    · exact support_same rfl
    · exact support_update hm rfl

theorem fits_same (hw : w.Fits) (h : w'.mgr.positions = w.mgr.positions) : w'.Fits := by
  intro k m hm
  rw [h] at hm
  exact hw k m hm

/-- **Activities keep every balance covered.** -/
theorem perform_fits (hw : w.Fits) {act : Activity} (h : ∀ e c, act = .call e c → Alone w a (e, c)) :
    (perform w a act).Fits ∧ SameSupport w (perform w a act) := by
  cases act with
  | call e c =>
    have halone := h e c rfl
    show (callTreasury w a e c).Fits ∧ SameSupport w (callTreasury w a e c)
    rw [callTreasury_eq hw halone]
    exact ⟨hw.exec halone.2, exec_support w e c⟩
  | flush e =>
    have hsame := (flushOnce_frame w e).1
    exact ⟨fits_same hw hsame, support_same hsame⟩
  | cleanup now => exact ⟨fits_same hw rfl, support_same rfl⟩

/-- **What the execution of an intent does to the balances**: nothing, or its amount at its
position. -/
theorem exec_intent (s : Desk) (e : CallEnv) (i : PositionIntent) :
    let w := (s.treasury.exec e (callOf i)).1
    let effective := s.treasury.mgr.held ⟨i.reference, opOf i.type⟩ = false ∧
      Effective (specOf (opOf i.type)) s.treasury e (keyOf i) i.amount i.reference
    (¬ effective ∧ w.mgr.positions = s.treasury.mgr.positions) ∨
    (effective ∧ ∃ m x, s.treasury.mgr.positions (keyOf i) = some m ∧ toMicro i.amount = some x ∧ x ≠ 0 ∧
      w.mgr.positions = update s.treasury.mgr.positions (keyOf i)
        (some ((specOf (opOf i.type)).effect.apply x m))) := by
  intro w effective
  have hiff : w.mgr.positions ≠ s.treasury.mgr.positions ↔ effective := by
    by_cases hheld : s.treasury.mgr.held ⟨i.reference, opOf i.type⟩ = true
    · refine iff_of_false (not_not.2 (counters_held hheld)) fun h => ?_
      rw [h.1] at hheld
      cases hheld
    · have hfree := Bool.eq_false_iff.2 hheld
      exact (counters_change_iff hfree).trans (and_iff_right hfree).symm
  have hcases := runOp_positions (specOf (opOf i.type)) s.treasury e (keyOf i) i.amount i.reference
    ((opOf i.type).refType i.refType)
  rw [← exec_eq_runOp] at hcases
  change w.mgr.positions = _ ∨ _ at hcases
  by_cases heff : effective
  · obtain ⟨m, x, hm, hx, -, hne⟩ := heff.2.allowed
    rcases hcases with hsame | ⟨-, -, m', x', hm', hx', -, hpos⟩
    · exact absurd hsame (hiff.2 heff)
    · rw [hm] at hm'
      rw [hx] at hx'
      cases hm'
      cases hx'
      exact .inr ⟨heff, m, x, hm, hx, hne, hpos⟩
  · exact .inl ⟨heff, not_not.1 (mt hiff.1 heff)⟩

theorem balanceOf_update (h : w'.mgr.positions = update w.mgr.positions k (some m')) (k' : PositionKey) :
    balanceOf w' k' = if k' = k then m'.balanceMicro else balanceOf w k' := by
  unfold balanceOf Manager.balanceAt
  rw [h]
  by_cases hk : k' = k
  · rw [if_pos hk, hk, update_self]
    rfl
  · rw [if_neg hk, update_of_ne hk]

theorem total_update (hs : Indexed s) (hm : s.treasury.mgr.positions k = some m)
    (h : w'.mgr.positions = update s.treasury.mgr.positions k (some m')) (t : UUID) (c : Currency) :
    total { s with treasury := w' } t c =
      total s t c + if k.tenantID = t ∧ k.currency = c then m'.balanceMicro - m.balanceMicro else 0 := by
  have hbal := balanceOf_update h
  have hmem : k.tenantID = t ↔ k ∈ s.tenantIndex t := ⟨fun ht => ht ▸ hs.complete k m hm, hs.tenant t k⟩
  have hk : balanceOf s.treasury k = m.balanceMicro := by rw [balanceOf, Manager.balanceAt, hm]; rfl
  unfold total
  rw [sum_filter_single (hs.nodup t) (and_congr_left' hmem) fun k' _ hne => by rw [hbal, if_neg hne], hbal, if_pos rfl, hk]

/-! ## The books of the moves -/

structure Of (i : PositionIntent) (p : Pair) : Prop where
  tenantID : i.tenantID = p.tenantID
  currency : i.currency = p.currency
  amount : i.amount = p.amount
  side : i.type = .withdrawal ∧ p.withdrawal = i.reference ∨ i.type = .topUp ∧ p.topUp = some i.reference

/-- What a move has added to the balances of its tenant so far. -/
def swing (applied : List UUID) (p : Pair) : ℤ :=
  (if ∃ t ∈ p.topUp, t ∈ applied then micro p.amount else 0) - if p.withdrawal ∈ applied then micro p.amount else 0

def swings (s : Desk) (t : UUID) (c : Currency) : ℤ :=
  ((s.pairs.filter fun p => p.tenantID = t ∧ p.currency = c).map (swing s.applied)).sum

/-- Each transaction belongs to one move, and an acknowledged move has taken effect on both sides or
on none. -/
structure Books (s : Desk) : Prop where
  indexed : Indexed s
  fits : s.treasury.Fits
  ids : (s.pairs.flatMap Pair.ids).Nodup
  applied : ∀ id ∈ s.applied, ∃ p ∈ s.pairs, id ∈ p.ids
  outbox : ∀ i ∈ s.db.outbox, ∃ p ∈ s.pairs, Of i p
  settled : ∀ p ∈ s.pairs, ¬ s.Pending p.withdrawal → (∀ t ∈ p.topUp, ¬ s.Pending t) →
    (p.withdrawal ∈ s.applied ↔ ∃ t ∈ p.topUp, t ∈ s.applied)

theorem mem_ids : id ∈ p.ids ↔ id = p.withdrawal ∨ p.topUp = some id := by
  unfold Pair.ids
  rw [mem_cons, Option.mem_toList]

theorem Of.mem_ids (h : Of i p) : i.reference ∈ p.ids :=
  Rebalance.mem_ids.2 (h.side.imp (·.2.symm) (·.2))

theorem topUp_ne_withdrawal (hp : p.ids.Nodup) (ht : p.topUp = some id) : id ≠ p.withdrawal := by
  rintro rfl
  unfold Pair.ids at hp
  rw [ht] at hp
  exact absurd hp (by simp)

theorem exists_topUp_cons (hid : p.topUp ≠ some id) (applied : List UUID) :
    (∃ t ∈ p.topUp, t ∈ id :: applied) ↔ ∃ t ∈ p.topUp, t ∈ applied := by
  refine exists_congr fun t => and_congr_right fun ht => ?_
  have hne : t ≠ id := by
    rintro rfl
    exact hid ht
  simp [hne]

theorem pair_unique (hids : (pairs.flatMap Pair.ids).Nodup) {p' : Pair} (hp : p ∈ pairs) (hp' : p' ∈ pairs)
    (hid : id ∈ p.ids) (hid' : id ∈ p'.ids) : p = p' := by
  by_contra hne
  have hsymm : Std.Symm (Function.onFun List.Disjoint Pair.ids) := ⟨fun _ _ h => disjoint_symm h⟩
  exact (nodup_flatMap.1 hids).2.forall hp hp' hne hid hid'

theorem swing_apply (hp : p.ids.Nodup) (hof : Of i p) (hnew : i.reference ∉ s.applied)
    (hx : toMicro i.amount = some x) :
    swing (i.reference :: s.applied) p - swing s.applied p = (specOf (opOf i.type)).effect.balance * x := by
  have hmicro : micro p.amount = x := by rw [← hof.amount, micro, hx]; rfl
  unfold swing
  rw [hmicro]
  rcases hof.side with ⟨htype, hw⟩ | ⟨htype, ht⟩
  · have hother := exists_topUp_cons (fun ht => topUp_ne_withdrawal hp ht hw.symm) s.applied
    simp only [hw, hother, mem_cons_self, hnew, if_true, if_false, htype, opOf, specOf_effect]
    omega
  · have hother : p.withdrawal ∈ i.reference :: s.applied ↔ p.withdrawal ∈ s.applied := by
      simp [(topUp_ne_withdrawal hp ht).symm]
    have hyes : ∃ t ∈ p.topUp, t ∈ i.reference :: s.applied := ⟨i.reference, ht, mem_cons_self⟩
    have hno : ¬ ∃ t ∈ p.topUp, t ∈ s.applied := by
      rintro ⟨t, hmem, happ⟩
      rw [ht] at hmem
      cases hmem
      exact hnew happ
    simp only [hother, hyes, hno, if_true, if_false, htype, opOf, specOf_effect]
    omega

theorem swing_other (hid : id ∉ p.ids) (applied : List UUID) : swing (id :: applied) p = swing applied p := by
  rw [mem_ids, not_or] at hid
  have hw : p.withdrawal ∈ id :: applied ↔ p.withdrawal ∈ applied := by simp [Ne.symm hid.1]
  simp only [swing, hw, exists_topUp_cons hid.2]

theorem swings_apply (hs : Books s) (hp : p ∈ s.pairs) (hof : Of i p) (hnew : i.reference ∉ s.applied)
    (hx : toMicro i.amount = some x) (t : UUID) (c : Currency) :
    swings { s with applied := i.reference :: s.applied } t c =
      swings s t c + if p.tenantID = t ∧ p.currency = c then (specOf (opOf i.type)).effect.balance * x else 0 := by
  have hothers : ∀ p' ∈ s.pairs, p' ≠ p → swing (i.reference :: s.applied) p' = swing s.applied p' := by
    intro p' hp' hne
    exact swing_other (fun hid => hne (pair_unique hs.ids hp' hp hid hof.mem_ids)) s.applied
  have hnodup : s.pairs.Nodup := (nodup_flatMap.1 hs.ids).2.imp fun hdis => by
    rintro rfl
    exact hdis mem_cons_self mem_cons_self
  unfold swings
  rw [sum_filter_single hnodup (and_iff_right hp).symm hothers, swing_apply ((nodup_flatMap.1 hs.ids).1 p hp) hof hnew hx]

/-- **Alike moves add nothing.** -/
theorem swings_settled (hs : Books s) (hdone : s.db.outbox = []) (t : UUID) (c : Currency) : swings s t c = 0 := by
  have hno : ∀ id, ¬ s.Pending id := by
    rintro id ⟨i, hi, -⟩
    rw [hdone] at hi
    cases hi
  apply sum_eq_zero
  intro x hx
  obtain ⟨p, hp, rfl⟩ := mem_map.1 hx
  have hiff := hs.settled p (mem_of_mem_filter hp) (hno _) fun t _ => hno t
  simp only [swing, hiff, sub_self]

def gap (s : Desk) (t : UUID) (c : Currency) : ℤ := total s t c - swings s t c

/-- Treasury, intents and moves are as they were. -/
structure SameBooks (s s' : Desk) : Prop where
  treasury : s'.treasury = s.treasury
  tenantIndex : s'.tenantIndex = s.tenantIndex
  outbox : s'.db.outbox = s.db.outbox
  pairs : s'.pairs = s.pairs
  applied : s'.applied = s.applied

theorem Books.congr (hs : Books s) (h : SameBooks s s') : Books s' := by
  have hpending : ∀ id, s'.Pending id ↔ s.Pending id := fun id => by unfold Desk.Pending; rw [h.outbox]
  refine ⟨⟨?_, ?_, ?_⟩, ?_, ?_, ?_, ?_, ?_⟩
  · rw [h.tenantIndex]; exact hs.indexed.nodup
  · rw [h.tenantIndex]; exact hs.indexed.tenant
  · rw [h.tenantIndex, h.treasury]; exact hs.indexed.complete
  · rw [h.treasury]; exact hs.fits
  · rw [h.pairs]; exact hs.ids
  · rw [h.pairs, h.applied]; exact hs.applied
  · rw [h.pairs, h.outbox]; exact hs.outbox
  · simp only [h.pairs, h.applied, hpending]
    exact hs.settled

theorem gap_congr (h : SameBooks s s') (t : UUID) (c : Currency) : gap s' t c = gap s t c := by
  simp only [gap, total, swings, h.treasury, h.tenantIndex, h.pairs, h.applied]

theorem sameBooks_cool (ids : List UUID) (now : Time) (s : Desk) :
    SameBooks s (ids.foldl (fun s id => s.setCooldown now id) s) := by
  induction ids generalizing s with
  | nil => exact ⟨rfl, rfl, rfl, rfl, rfl⟩
  | cons id ids ih =>
    obtain ⟨htreasury, hindex, hout, hpairs, happlied⟩ := ih (s.setCooldown now id)
    exact ⟨htreasury, hindex, hout, hpairs, happlied⟩

theorem result_outbox {type : TxType} {txID : UUID} {success : Bool} {reason : String}
    (h : handleResult type s.db tenantID txID success reason = .ok db) : db.outbox = s.db.outbox := by
  unfold handleResult at h
  split at h
  · cases h
  split at h
  · cases h; rfl
  split at h
  · cases h; rfl
  · cases h; rfl

/-- The steps that only read, or write what the moves do not depend on. -/
def Point.quiet : Point → Bool
  | .withdraw .. | .topUp .. | .deliver _ | .activity _ => false
  | _ => true

theorem sameBooks_quiet (hg : g.quiet = true) (a : Answer) (s : Desk) : SameBooks s (g.effect a s) := by
  cases g with
  | getPositions | check | cleanup => exact ⟨rfl, rfl, rfl, rfl, rfl⟩
  | withdraw | topUp | deliver | activity => cases hg
  | cool positions => exact sameBooks_cool positions a.now s
  | result type tenantID txID success reason =>
    unfold Point.effect
    dsimp only
    split
    · exact ⟨rfl, rfl, rfl, rfl, rfl⟩
    · rename_i db hdb
      split
      · exact ⟨rfl, rfl, result_outbox hdb, rfl, rfl⟩
      · exact ⟨rfl, rfl, rfl, rfl, rfl⟩

/-! ### The requests -/

variable {source dest : Position} {amount : Decimal}

theorem withdraw_cases (s : Desk) (a : Answer) (t : UUID) (source dest : Position) (amount : Decimal) :
    ((s.withdraw a t source dest amount).1 = s ∧ (s.withdraw a t source dest amount).2 = false) ∨
    ∃ db i, (s.withdraw a t source dest amount).1 =
        { s with db := db, pairs := s.pairs ++ [⟨t, source.currency, amount, a.id, none⟩] } ∧
      db.outbox = s.db.outbox ++ [i] ∧ i.reference = a.id ∧ Of i ⟨t, source.currency, amount, a.id, none⟩ := by
  unfold Desk.withdraw
  split
  · exact .inl ⟨rfl, rfl⟩
  · rename_i tx intent hreq
    split
    · refine .inr ⟨_, intent, rfl, rfl, ?_⟩
      unfold requestWithdrawal at hreq
      iterate 4 (split at hreq; · cases hreq)
      · cases hreq
        exact ⟨rfl, rfl, rfl, rfl, .inl ⟨rfl, rfl⟩⟩
    · exact .inl ⟨rfl, rfl⟩

def toppedUp (w id : UUID) (p : Pair) : Pair := if p.withdrawal = w then { p with topUp := some id } else p

theorem topUp_cases (s : Desk) (a : Answer) (t w : UUID) (dest : Position) (amount : Decimal) :
    (s.topUp a t w dest amount).1 = s ∨
    ∃ db i, (s.topUp a t w dest amount).1 = { s with db := db, pairs := s.pairs.map (toppedUp w a.id) } ∧
      db.outbox = s.db.outbox ++ [i] ∧ i.reference = a.id ∧ i.type = .topUp ∧ i.tenantID = t ∧
      i.currency = dest.currency ∧ i.amount = amount := by
  unfold Desk.topUp
  split
  · exact .inl rfl
  · rename_i tx intent hreq
    split
    · refine .inr ⟨_, intent, rfl, rfl, ?_⟩
      unfold requestTopUp at hreq
      iterate 2 (split at hreq; · cases hreq)
      · cases hreq
        exact ⟨rfl, rfl, rfl, rfl, rfl⟩
    · exact .inl rfl

theorem pending_snoc (h : db.outbox = s.db.outbox ++ [i]) (hs : s'.db = db) :
    s'.Pending id ↔ s.Pending id ∨ id = i.reference := by
  unfold Desk.Pending
  rw [hs, h]
  simp only [mem_append, mem_singleton, or_and_right, exists_or, exists_eq_left, eq_comm (a := id)]

theorem Books.new_applied (hs : Books s) (hnew : ∀ p ∈ s.pairs, id ∉ p.ids) : id ∉ s.applied := by
  intro happ
  obtain ⟨p, hp, hid⟩ := hs.applied id happ
  exact hnew p hp hid

/-- **A request keeps the books** if its intent belongs to a move and the other moves stay. -/
theorem Books.request (hs : Books s) (hout : db.outbox = s.db.outbox ++ [i]) (hids : (pairs'.flatMap Pair.ids).Nodup)
    (hi : ∃ p ∈ pairs', Of i p) (hkept : ∀ p ∈ s.pairs, ∃ p' ∈ pairs', p.ids ⊆ p'.ids ∧ ∀ j, Of j p → Of j p')
    (hold : ∀ p ∈ pairs', p ∈ s.pairs ∨ i.reference ∈ p.ids) : Books { s with db := db, pairs := pairs' } := by
  refine ⟨⟨hs.indexed.nodup, hs.indexed.tenant, hs.indexed.complete⟩, hs.fits, hids, ?_, ?_, ?_⟩
  · intro id hid
    obtain ⟨p, hp, hmem⟩ := hs.applied id hid
    obtain ⟨p', hp', hsub, -⟩ := hkept p hp
    exact ⟨p', hp', hsub hmem⟩
  · intro j hj
    have hj : j ∈ db.outbox := hj
    rw [hout] at hj
    rcases mem_append.1 hj with hj | hj
    · obtain ⟨p, hp, hpj⟩ := hs.outbox j hj
      obtain ⟨p', hp', -, hof⟩ := hkept p hp
      exact ⟨p', hp', hof j hpj⟩
    · rw [mem_singleton.1 hj]
      exact hi
  · intro p hp hw ht
    rw [pending_snoc hout rfl, not_or] at hw
    have ht : ∀ t ∈ p.topUp, ¬ (s.Pending t ∨ t = i.reference) := fun t hmem h => ht t hmem ((pending_snoc hout rfl).2 h)
    rcases hold p hp with hp | hid
    · exact hs.settled p hp hw.1 fun t hmem h => ht t hmem (.inl h)
    -- a move with the new intent is not over
    · rcases mem_ids.1 hid with heq | heq
      · exact absurd heq.symm hw.2
      · exact absurd (.inr rfl) (ht _ heq)

theorem withdraw_books (hs : Books s) (hnew : ∀ p ∈ s.pairs, a.id ∉ p.ids) (t : UUID) (source dest : Position)
    (amount : Decimal) :
    Books (s.withdraw a t source dest amount).1 ∧
      ∀ t' c, gap (s.withdraw a t source dest amount).1 t' c = gap s t' c := by
  rcases withdraw_cases s a t source dest amount with ⟨heq, -⟩ | ⟨db, i, heq, hout, href, hof⟩
  · rw [heq]
    exact ⟨hs, fun _ _ => rfl⟩
  rw [heq]
  set p₀ : Pair := ⟨t, source.currency, amount, a.id, none⟩ with hp₀
  have hlast : p₀ ∈ s.pairs ++ [p₀] := mem_append_right _ (mem_singleton.2 rfl)
  have hnone : ¬ ∃ t ∈ p₀.topUp, t ∈ s.applied := by simp [hp₀]
  refine ⟨hs.request hout ?_ ⟨p₀, hlast, hof⟩ (fun p hp => ⟨p, mem_append_left _ hp, Subset.refl _, fun _ => id⟩) ?_,
    fun t' c => ?_⟩
  · rw [flatMap_append, flatMap_singleton]
    refine hs.ids.append (nodup_singleton _) ?_
    intro id hid hid'
    obtain ⟨p, hp, hmem⟩ := mem_flatMap.1 hid
    rw [mem_singleton.1 hid'] at hmem
    exact hnew p hp hmem
  · intro p hp
    refine (mem_append.1 hp).imp_right fun hp => ?_
    rw [mem_singleton.1 hp]
    exact hof.mem_ids
  · have hzero : swing s.applied p₀ = 0 := by
      have hw : p₀.withdrawal ∉ s.applied := hs.new_applied hnew
      rw [swing, if_neg hnone, if_neg hw, sub_self]
    show total s t' c - (((s.pairs ++ [p₀]).filter _).map (swing s.applied)).sum = _
    rw [filter_append, map_append, sum_append]
    have hlast : (([p₀].filter fun p => p.tenantID = t' ∧ p.currency = c).map (swing s.applied)).sum = 0 := by
      apply sum_eq_zero
      intro x hx
      obtain ⟨p, hp, rfl⟩ := mem_map.1 hx
      rw [mem_singleton.1 (mem_of_mem_filter hp), hzero]
    rw [hlast, add_zero]
    rfl

theorem toppedUp_of_ne {w : UUID} (h : p.withdrawal ≠ w) : toppedUp w id p = p := if_neg h

theorem mem_toppedUp_ids {w x : UUID} (h : x ∈ (toppedUp w id p).ids) : x ∈ p.ids ∨ p.withdrawal = w ∧ x = id := by
  by_cases hw : p.withdrawal = w
  · rw [toppedUp, if_pos hw, mem_ids] at h
    rcases h with h | h
    · exact .inl (mem_ids.2 (.inl h))
    · cases h
      exact .inr ⟨hw, rfl⟩
  · rw [toppedUp_of_ne hw] at h
    exact .inl h

theorem toppedUp_nodup {w : UUID} (hids : (pairs.flatMap Pair.ids).Nodup) (hnew : ∀ p ∈ pairs, id ∉ p.ids) :
    ((pairs.map (toppedUp w id)).flatMap Pair.ids).Nodup := by
  rw [nodup_flatMap] at hids ⊢
  refine ⟨?_, pairwise_map.2 (hids.2.imp_of_mem ?_)⟩
  · intro p' hp'
    obtain ⟨p, hp, rfl⟩ := mem_map.1 hp'
    by_cases hw : p.withdrawal = w
    · have hne : p.withdrawal ≠ id := by
        rintro rfl
        exact hnew p hp mem_cons_self
      rw [toppedUp, if_pos hw]
      simp [Pair.ids, hne]
    · rw [toppedUp_of_ne hw]
      exact hids.1 p hp
  · intro p p' hp hp' hdis x hx hx'
    rcases mem_toppedUp_ids hx with hold | ⟨hw, rfl⟩
    · rcases mem_toppedUp_ids hx' with hold' | ⟨-, rfl⟩
      · exact hdis hold hold'
      · exact hnew p hp hold
    · rcases mem_toppedUp_ids hx' with hold' | ⟨hw', -⟩
      · exact hnew p' hp' hold'
      · exact hdis (mem_ids.2 (.inl hw.symm)) (mem_ids.2 (.inl hw'.symm))

theorem topUp_books (hs : Books s) (hnew : ∀ p ∈ s.pairs, a.id ∉ p.ids) {t w : UUID}
    (hknown : Known s.pairs (.topUp t w source dest amount)) :
    Books (s.topUp a t w dest amount).1 ∧ ∀ t' c, gap (s.topUp a t w dest amount).1 t' c = gap s t' c := by
  rcases topUp_cases s a t w dest amount with heq | ⟨db, i, heq, hout, href, htype, hten, hcur, ham⟩
  · rw [heq]
    exact ⟨hs, fun _ _ => rfl⟩
  rw [heq]
  obtain ⟨p₀, hp₀, hw₀, hnone, hten₀, hcur₀, ham₀⟩ := hknown
  -- the only move that changes is the one of the withdrawal, which had no top-up
  have honly : ∀ p ∈ s.pairs, p.withdrawal = w → p = p₀ := by
    rintro p hp rfl
    exact pair_unique hs.ids hp hp₀ mem_cons_self (mem_ids.2 (.inl hw₀.symm))
  have htop₀ : toppedUp w a.id p₀ = { p₀ with topUp := some a.id } := if_pos hw₀
  have hcases : ∀ p ∈ s.pairs, p = p₀ ∨ toppedUp w a.id p = p := fun p hp => by
    by_cases hw : p.withdrawal = w
    · exact .inl (honly p hp hw)
    · exact .inr (toppedUp_of_ne hw)
  have hof : Of i (toppedUp w a.id p₀) := by
    rw [htop₀]
    exact ⟨hten.trans hten₀.symm, hcur.trans hcur₀.symm, ham.trans ham₀.symm, .inr ⟨htype, congrArg some href.symm⟩⟩
  refine ⟨hs.request hout (toppedUp_nodup hs.ids hnew) ⟨_, mem_map_of_mem hp₀, hof⟩ ?_ ?_, fun t' c => ?_⟩
  · intro p hp
    refine ⟨_, mem_map_of_mem hp, ?_⟩
    rcases hcases p hp with rfl | hsame
    · rw [htop₀]
      refine ⟨fun id hid => ?_, fun j hj => ⟨hj.tenantID, hj.currency, hj.amount, .inl (hj.side.resolve_right ?_)⟩⟩
      · rw [mem_ids, hnone] at hid
        exact mem_ids.2 (.inl (hid.resolve_right (by simp)))
      · simp [hnone]
    · rw [hsame]
      exact ⟨Subset.refl _, fun _ => id⟩
  · intro p' hp'
    obtain ⟨p, hp, rfl⟩ := mem_map.1 hp'
    rcases hcases p hp with rfl | hsame
    · exact .inr hof.mem_ids
    · exact .inl (hsame.symm ▸ hp)
  · have hswing : ∀ p ∈ s.pairs, swing s.applied (toppedUp w a.id p) = swing s.applied p := by
      intro p hp
      rcases hcases p hp with rfl | hsame
      · have hid : a.id ∉ s.applied := hs.new_applied hnew
        rw [htop₀]
        simp [swing, hnone, hid]
      · rw [hsame]
    have hkey : ∀ p, (toppedUp w a.id p).tenantID = p.tenantID ∧ (toppedUp w a.id p).currency = p.currency := fun p => by
      unfold toppedUp
      split <;> exact ⟨rfl, rfl⟩
    show total s t' c - (((s.pairs.map (toppedUp w a.id)).filter _).map (swing s.applied)).sum = _
    rw [filter_map, map_map]
    refine congrArg (total s t' c - ·) ?_
    have hfilter : (s.pairs.filter ((fun p => decide (p.tenantID = t' ∧ p.currency = c)) ∘ toppedUp w a.id)) =
        s.pairs.filter fun p => decide (p.tenantID = t' ∧ p.currency = c) :=
      filter_congr fun p _ => by simp only [comp, (hkey p).1, (hkey p).2]
    rw [hfilter]
    exact congrArg List.sum (map_congr_left fun p hp => hswing p (mem_of_mem_filter hp))

/-! ### Deliveries and other activities -/

/-- **What a delivery does**: its intent has taken effect exactly if it `Takes`, and the balances
move with it. -/
theorem deliver_cases (hs : Books s) (a : Answer) (hfind : s.db.outbox.find? (·.reference = reference) = some i)
    (halone : Alone s.treasury a (a.call, callOf i))
    (honce : i.reference ∈ s.applied → s.treasury.mgr.held ⟨i.reference, opOf i.type⟩ = true) :
    ∃ w applied, s.deliver a reference = { s with
        treasury := w
        applied := applied
        db := if a.reply = .ok then { s.db with outbox := s.db.outbox.filter (·.reference ≠ reference) } else s.db } ∧
      w.Fits ∧ SameSupport s.treasury w ∧ (∀ id, id ≠ i.reference → (id ∈ applied ↔ id ∈ s.applied)) ∧
      (i.reference ∈ applied ↔ Takes s a.call i) ∧
      ∀ t c, gap { s with treasury := w, applied := applied } t c = gap s t c := by
  have hmem : i ∈ s.db.outbox := List.mem_of_find?_eq_some hfind
  obtain ⟨p, hp, hof⟩ := hs.outbox i hmem
  have hfits : (s.treasury.exec a.call (callOf i)).1.Fits := hs.fits.exec halone.2
  have hsupport := exec_support s.treasury a.call (callOf i)
  have hexec := exec_intent s a.call i
  unfold Desk.deliver
  rw [hfind]
  dsimp only
  rw [callTreasury_eq hs.fits halone]
  set w := (s.treasury.exec a.call (callOf i)).1
  rcases hexec with ⟨hno, hsame⟩ | ⟨heff, m, x, hm, hx, hne, hpos⟩
  · have hbal : ¬ balanceOf w (keyOf i) ≠ balanceOf s.treasury (keyOf i) := by
      rw [not_not, balanceOf, Manager.balanceAt, hsame]
      rfl
    rw [if_neg hbal]
    refine ⟨w, s.applied, rfl, hfits, hsupport, fun _ _ => Iff.rfl, ?_, fun t c => ?_⟩
    · exact ⟨.inl, fun h => h.resolve_right hno⟩
    · have htotal : total { s with treasury := w } t c = total s t c := by unfold total balanceOf Manager.balanceAt; rw [hsame]
      exact congrArg (· - swings s t c) htotal
  · have hbal : balanceOf w (keyOf i) ≠ balanceOf s.treasury (keyOf i) := by
      rw [balanceOf_update hpos, if_pos rfl, balanceOf, Manager.balanceAt, hm]
      show ((specOf (opOf i.type)).effect.apply _ m).balanceMicro ≠ m.balanceMicro
      rw [Effect.apply_balance]
      cases i.type <;> simp only [opOf, specOf_effect] <;> omega
    have hnew : i.reference ∉ s.applied := fun happ => by
      rw [honce happ] at heff
      cases heff.1
    rw [if_pos hbal]
    refine ⟨w, i.reference :: s.applied, rfl, hfits, hsupport, fun id hid => by simp [hid], ?_, fun t c => ?_⟩
    · exact ⟨fun _ => .inr heff, fun _ => mem_cons_self⟩
    · have htotal := total_update hs.indexed hm hpos t c
      have hswings := swings_apply hs hp hof hnew hx t c
      have hkey : (keyOf i).tenantID = p.tenantID ∧ (keyOf i).currency = p.currency := ⟨hof.tenantID, hof.currency⟩
      rw [hkey.1, hkey.2, Effect.apply_balance] at htotal
      show total { s with treasury := w } t c - swings { s with applied := i.reference :: s.applied } t c = _
      rw [htotal, hswings, gap]
      split <;> omega

theorem Indexed.support (h : Indexed s) (hw : SameSupport s.treasury w) (s' : Desk) (hs' : s'.treasury = w)
    (hindex : s'.tenantIndex = s.tenantIndex) : Indexed s' := by
  refine ⟨hindex ▸ h.nodup, hindex ▸ h.tenant, fun k m hm => ?_⟩
  rw [hs'] at hm
  obtain ⟨m₀, hm₀⟩ := hw k m hm
  rw [hindex]
  exact h.complete k m₀ hm₀

theorem pending_filter (hdb : s'.db.outbox = s.db.outbox.filter (·.reference ≠ reference)) :
    s'.Pending id ↔ id ≠ reference ∧ s.Pending id := by
  unfold Desk.Pending
  rw [hdb]
  constructor
  · rintro ⟨j, hj, rfl⟩
    obtain ⟨hj, hne⟩ := mem_filter.1 hj
    exact ⟨of_decide_eq_true hne, j, hj, rfl⟩
  · rintro ⟨hne, j, hj, rfl⟩
    exact ⟨j, mem_filter.2 ⟨hj, decide_eq_true hne⟩, rfl⟩

theorem deliver_settled (hs : Books s) (hi : i ∈ s.db.outbox) (hstep : InStep s a i) {applied : List UUID}
    (hothers : ∀ id, id ≠ i.reference → (id ∈ applied ↔ id ∈ s.applied)) (htakes : i.reference ∈ applied ↔ Takes s a.call i)
    (hpending : ∀ id, s'.Pending id ↔ s.Pending id ∧ (a.reply = .ok → id ≠ i.reference))
    (hp : p ∈ s.pairs) (hw : ¬ s'.Pending p.withdrawal) (ht : ∀ t ∈ p.topUp, ¬ s'.Pending t) :
    p.withdrawal ∈ applied ↔ ∃ t ∈ p.topUp, t ∈ applied := by
  have hkept : ∀ id, id ≠ i.reference → ¬ s'.Pending id → ¬ s.Pending id := fun id hne hno h =>
    hno ((hpending id).2 ⟨h, fun _ => hne⟩)
  -- an intent that was not acknowledged is still pending
  have hacked : ¬ s'.Pending i.reference → a.reply = .ok := fun hno => by
    by_contra hreply
    exact hno ((hpending _).2 ⟨⟨i, hi, rfl⟩, fun h => absurd h hreply⟩)
  by_cases hwi : p.withdrawal = i.reference
  · have hne : ∀ t ∈ p.topUp, t ≠ i.reference := fun t htop => hwi ▸ topUp_ne_withdrawal ((nodup_flatMap.1 hs.ids).1 p hp) htop
    have hok : a.reply = .ok := hacked (hwi ▸ hw)
    rw [hwi, htakes, hstep.withdrawal hok p hp hwi fun t htop => hkept t (hne t htop) (ht t htop)]
    exact exists_congr fun t => and_congr_right fun htop => (hothers t (hne t htop)).symm
  by_cases hti : p.topUp = some i.reference
  · have hok : a.reply = .ok := hacked (ht _ hti)
    rw [hothers _ hwi, ← hstep.topUp hok p hp hti (hkept _ hwi hw), ← htakes, hti]
    simp
  · have hne : ∀ t ∈ p.topUp, t ≠ i.reference := by
      rintro t htop rfl
      exact hti htop
    rw [hothers _ hwi, hs.settled p hp (hkept _ hwi hw) fun t htop => hkept t (hne t htop) (ht t htop)]
    exact exists_congr fun t => and_congr_right fun htop => (hothers t (hne t htop)).symm

theorem deliver_books (hs : Books s) (horder : InOrder s a (.deliver reference)) :
    Books (s.deliver a reference) ∧ ∀ t c, gap (s.deliver a reference) t c = gap s t c := by
  cases hfind : s.db.outbox.find? (·.reference = reference) with
  | none =>
    have heq : s.deliver a reference = s := by unfold Desk.deliver; rw [hfind]
    rw [heq]
    exact ⟨hs, fun _ _ => rfl⟩
  | some i =>
    have hi : i ∈ s.db.outbox := List.mem_of_find?_eq_some hfind
    have hprop := List.find?_some hfind
    have href : i.reference = reference := of_decide_eq_true hprop
    obtain ⟨halone, hin⟩ := horder i hfind
    obtain ⟨w, applied, heq, hfits, hsupport, hothers, htakes, hgap⟩ := deliver_cases hs a hfind halone hin.once
    subst href
    rw [heq]
    refine ⟨⟨hs.indexed.support hsupport _ rfl rfl, hfits, hs.ids, ?_, ?_, ?_⟩, hgap⟩
    · intro id hid
      by_cases hne : id = i.reference
      · obtain ⟨p, hp, hof⟩ := hs.outbox i hi
        exact ⟨p, hp, hne ▸ hof.mem_ids⟩
      · exact hs.applied id ((hothers id hne).1 hid)
    · intro j hj
      refine hs.outbox j ?_
      split at hj
      · exact mem_of_mem_filter hj
      · exact hj
    · intro p hp
      refine deliver_settled hs hi hin hothers htakes (fun id => ?_) hp
      by_cases hok : a.reply = .ok
      · rw [pending_filter (congrArg PositionDB.outbox (if_pos hok)), and_comm]
        exact and_congr_right fun _ => ⟨fun h _ => h, fun h => h hok⟩
      · simp only [Desk.Pending, if_neg hok]
        exact ⟨fun h => ⟨h, fun h' => absurd h' hok⟩, And.left⟩

theorem activity_books (hs : Books s) {act : Activity} (horder : InOrder s a (.activity act)) (t : UUID) (c : Currency) :
    Books (Point.effect a s (.activity act)) ∧
      gap (Point.effect a s (.activity act)) t c - gap s t c = total (Point.effect a s (.activity act)) t c - total s t c := by
  have hkept : (perform s.treasury a act).Fits ∧ SameSupport s.treasury (perform s.treasury a act) := by
    refine perform_fits hs.fits ?_
    rintro e c rfl
    exact horder
  obtain ⟨hfits, hsupport⟩ := hkept
  refine ⟨⟨hs.indexed.support hsupport _ rfl rfl, hfits, hs.ids, hs.applied, hs.outbox, hs.settled⟩, ?_⟩
  show total _ t c - swings s t c - (total s t c - swings s t c) = _
  omega

/-! ## Runs -/

def Fit (s : Desk) (a : Answer) : Point → Prop
  | .withdraw _ _ _ _ => ∀ p ∈ s.pairs, a.id ∉ p.ids
  | .topUp t w source dest amount => (∀ p ∈ s.pairs, a.id ∉ p.ids) ∧ Known s.pairs (.topUp t w source dest amount)
  | g => InOrder s a g

def Point.isActivity : Point → Bool
  | .activity _ => true
  | _ => false

theorem effect_books (hs : Books s) (hfit : Fit s a g) (t : UUID) (c : Currency) :
    Books (g.effect a s) ∧
      gap (g.effect a s) t c - gap s t c = if g.isActivity then total (g.effect a s) t c - total s t c else 0 := by
  have hquiet {g : Point} (hg : g.quiet = true) : Books (g.effect a s) ∧ gap (g.effect a s) t c - gap s t c = 0 :=
    ⟨hs.congr (sameBooks_quiet hg a s), sub_eq_zero.2 (gap_congr (sameBooks_quiet hg a s) t c)⟩
  have hgap {s' : Desk} (h : Books s' ∧ ∀ t c, gap s' t c = gap s t c) : Books s' ∧ gap s' t c - gap s t c = 0 :=
    ⟨h.1, sub_eq_zero.2 (h.2 t c)⟩
  cases g with
  | getPositions | check | cleanup | cool | result => exact hquiet rfl
  | withdraw tenantID source dest amount => exact hgap (withdraw_books hs hfit tenantID source dest amount)
  | topUp tenantID w source dest amount => exact hgap (topUp_books hs hfit.1 hfit.2)
  | deliver reference => exact hgap (deliver_books hs hfit)
  | activity act => exact activity_books hs hfit t c

/-- What the goroutines know, and no two of them are about to request a top-up for one
withdrawal. -/
structure Threaded (pairs : List Pair) (ps : List (Pos Point Unit)) : Prop where
  known : ∀ q ∈ ps, ∀ g ∈ q.label?, Known pairs g
  distinct : (ps.filterMap topping).Nodup

theorem Known.imp (h : Known pairs g)
    (htop : ∀ p ∈ pairs, topping (.before g) = some p.withdrawal → p ∈ pairs') : Known pairs' g := by
  cases g with
  | topUp t w source dest amount =>
    obtain ⟨p, hp, hw, hrest⟩ := h
    exact ⟨p, htop p hp (congrArg some hw.symm), hw, hrest⟩
  | withdraw t source dest amount => exact h
  | _ => trivial

theorem Plain.known (h : Plain q) (pairs : List Pair) : ∀ g ∈ q.label?, Known pairs g :=
  fun g hg => (h.2 g hg).imp fun _ hp => nomatch hp

theorem Threaded.of_perm {ps' : List (Pos Point Unit)} (h : Threaded pairs ps) (hperm : ps.Perm ps') :
    Threaded pairs ps' :=
  ⟨fun q hq => h.known q (hperm.mem_iff.2 hq), (hperm.filterMap topping).nodup_iff.1 h.distinct⟩

theorem Threaded.of_sublist {ps' : List (Pos Point Unit)} (h : Threaded pairs ps)
    (hsub : List.Sublist ps' ps) : Threaded pairs ps' :=
  ⟨fun q hq => h.known q (hsub.subset hq), h.distinct.sublist (hsub.filterMap topping)⟩

theorem Threaded.cons_plain (h : Threaded pairs ps) (hq : Plain q) : Threaded pairs (q :: ps) := by
  refine ⟨?_, ?_⟩
  · intro q' hq'
    rcases mem_cons.1 hq' with rfl | hq'
    · exact hq.known pairs
    · exact h.known q' hq'
  · rw [filterMap_cons_none hq.1]
    exact h.distinct

theorem Threaded.toppedUp (h : Threaded pairs ps) {w : UUID} (hw : w ∉ ps.filterMap topping) (id : UUID) :
    Threaded (pairs.map (Rebalance.toppedUp w id)) ps := by
  refine ⟨fun q hq g hg => (h.known q hq g hg).imp fun p hp htop => ?_, h.distinct⟩
  have hne : p.withdrawal ≠ w := by
    rintro rfl
    refine hw (mem_filterMap.2 ⟨q, hq, ?_⟩)
    cases q with
    | before g =>
      cases hg
      exact htop
    | returned r => cases hg
  exact mem_map.2 ⟨p, hp, toppedUp_of_ne hne⟩

theorem rest_threaded (h : Threaded s.pairs (.before g :: ps)) (a : Answer) : Threaded (g.effect a s).pairs ps := by
  have hrest : Threaded s.pairs ps := h.of_sublist (sublist_cons_self _ _)
  have hquiet {g : Point} (hg : g.quiet = true) : Threaded (g.effect a s).pairs ps :=
    (sameBooks_quiet hg a s).pairs ▸ hrest
  cases g with
  | getPositions | check | cleanup | cool | result => exact hquiet rfl
  | withdraw t source dest amount =>
    show Threaded (s.withdraw a t source dest amount).1.pairs ps
    rcases withdraw_cases s a t source dest amount with ⟨heq, -⟩ | ⟨db, i, heq, -⟩
    · rw [heq]; exact hrest
    · rw [heq]; exact ⟨fun q hq g hg => (hrest.known q hq g hg).imp fun _ hp _ => mem_append_left _ hp, hrest.distinct⟩
  | topUp t w source dest amount =>
    show Threaded (s.topUp a t w dest amount).1.pairs ps
    rcases topUp_cases s a t w dest amount with heq | ⟨db, i, heq, -⟩
    · rw [heq]; exact hrest
    · rw [heq]; exact hrest.toppedUp (nodup_cons.1 h.distinct).1 a.id
  | deliver reference =>
    show Threaded (s.deliver a reference).pairs ps
    unfold Desk.deliver
    split <;> exact hrest
  | activity => exact hrest

theorem Threaded.topping_mem (h : Threaded pairs ps) {w : UUID} (hw : w ∈ ps.filterMap topping) :
    ∃ p ∈ pairs, w ∈ p.ids := by
  obtain ⟨q, hq, htop⟩ := mem_filterMap.1 hw
  unfold topping at htop
  split at htop
  · rename_i t w' source dest amount
    cases htop
    obtain ⟨p, hp, hwp, -⟩ := h.known _ hq _ rfl
    exact ⟨p, hp, mem_ids.2 (.inl hwp.symm)⟩
  · cases htop

theorem does_threaded (h : Threaded s.pairs (.before g :: ps)) (hfit : Fit s a g) (hdoes : Does g a s s' q) :
    Threaded s'.pairs (q :: ps) := by
  obtain ⟨rfl, hplain | ⟨t, source, dest, amount, rfl, hok, rfl⟩⟩ := hdoes
  · exact (rest_threaded h a).cons_plain hplain
  have hrest := rest_threaded h a
  have hcur : source.currency = dest.currency := h.known _ mem_cons_self _ rfl
  refine ⟨?_, ?_⟩
  · intro q hq g hg
    rcases mem_cons.1 hq with rfl | hq
    · cases hg
      rcases withdraw_cases s a t source dest amount with ⟨-, hno⟩ | ⟨db, i, heq, -⟩
      · rw [hno] at hok
        cases hok
      · refine ⟨⟨t, source.currency, amount, a.id, none⟩, ?_, rfl, rfl, rfl, hcur, rfl⟩
        show _ ∈ (s.withdraw a t source dest amount).1.pairs
        rw [heq]
        exact mem_append_right _ (mem_singleton.2 rfl)
    · exact hrest.known q hq g hg
  · show (a.id :: ps.filterMap topping).Nodup
    refine nodup_cons.2 ⟨fun hmem => ?_, hrest.distinct⟩
    obtain ⟨p, hp, hid⟩ := (h.of_sublist (sublist_cons_self _ _)).topping_mem hmem
    exact hfit p hp hid

structure Sound (S : Shop) : Prop where
  following : S.Following Does
  books : Books S.state
  threaded : Threaded S.state.pairs S.positions

theorem fit_of_meets {j : ℕ} (hj : ps[j]? = some (.before g)) (hknown : Known s.pairs g)
    (hnew : AtSteps TakesNewID s ps (.step j a)) (horder : AtSteps InOrder s ps (.step j a)) : Fit s a g := by
  have hnew := hnew _ hj g rfl
  have horder := horder _ hj g rfl
  cases g with
  | withdraw t source dest amount => exact hnew
  | topUp t w source dest amount => exact ⟨hnew, hknown⟩
  | _ => exact horder

theorem otherChange_idle (h : (S.act program act).state = S.state) (t : UUID)
    (c : Currency) : otherChange t c S act = 0 := by
  unfold otherChange
  split
  · split
    · rw [h, sub_self]
    · rfl
  · rfl

/-- **An action keeps the books**, and balances change only by what is none of the rebalancing. -/
theorem act_sound (hS : Sound S) (hnew : AtSteps TakesNewID S.state S.positions act)
    (horder : AtSteps InOrder S.state S.positions act) : Sound (S.act program act) ∧
      ∀ t c, gap (S.act program act).state t c = gap S.state t c + otherChange t c S act := by
  obtain ⟨hfollows, heffect⟩ := act_cases (fun t => (program_follows t).1) hS.following act
  have hidle : (S.act program act).state = S.state → Threaded S.state.pairs (S.act program act).positions →
      Sound (S.act program act) ∧ ∀ t c, gap (S.act program act).state t c = gap S.state t c + otherChange t c S act := by
    intro hstate hthreaded
    refine ⟨⟨hfollows, hstate ▸ hS.books, hstate ▸ hthreaded⟩, fun t c => ?_⟩
    rw [otherChange_idle hstate, hstate, add_zero]
  obtain ⟨s', hs'⟩ : ∃ s', (S.act program act).state = s' := ⟨_, rfl⟩
  obtain ⟨ps', hps'⟩ : ∃ ps', (S.act program act).positions = ps' := ⟨_, rfl⟩
  rw [hs', hps'] at heffect
  cases heffect with
  | start task =>
    refine hidle hs' ?_
    rw [hps']
    exact (hS.threaded.cons_plain (program_follows task).2).of_perm (perm_append_singleton _ _).symm
  | drop j =>
    refine hidle hs' ?_
    rw [hps']
    exact hS.threaded.of_sublist (eraseIdx_sublist _ _)
  | idle j a =>
    refine hidle hs' ?_
    rw [hps']
    exact hS.threaded
  | step j a g s' q hj hdoes =>
    obtain ⟨hperm, hset⟩ := perm_rest hj
    have hhead : Threaded S.state.pairs (.before g :: S.positions.eraseIdx j) := hS.threaded.of_perm hperm
    have hfit : Fit S.state a g :=
      fit_of_meets hj (hS.threaded.known _ (List.mem_of_getElem? hj) g rfl) hnew horder
    have hbooks := effect_books hS.books hfit
    rw [← hdoes.1, ← hs'] at hbooks
    refine ⟨⟨hfollows, (hbooks 0 "").1, ?_⟩, fun t c => ?_⟩
    · rw [hs', hps']
      exact (does_threaded hhead hfit hdoes).of_perm (hset q).symm
    · have hother : otherChange t c S (.step j a) =
          if g.isActivity then total (S.act program (.step j a)).state t c - total S.state t c else 0 := by
        unfold otherChange
        dsimp only
        rw [hj]
        cases g <;> rfl
      rw [hother, ← (hbooks t c).2]
      omega

/-- The index is in order, the counters fit, and no move has been made. -/
structure Started (s : Desk) : Prop where
  indexed : Indexed s
  fits : s.treasury.Fits
  pairs : s.pairs = []
  applied : s.applied = []
  outbox : s.db.outbox = []

theorem Started.sound (h : Started s) : Sound (.init s) := by
  refine ⟨init_following s, ⟨h.indexed, h.fits, ?_, ?_, ?_, ?_⟩, ?_⟩
  · rw [System.init, h.pairs]; exact nodup_nil
  · intro id hid
    rw [System.init, h.applied] at hid
    cases hid
  · intro i hi
    rw [System.init, h.outbox] at hi
    cases hi
  · intro p hp
    rw [System.init, h.pairs] at hp
    cases hp
  · exact ⟨fun q hq => absurd hq not_mem_nil, nodup_nil⟩

theorem Started.gap (h : Started s) (t : UUID) (c : Currency) : Rebalance.gap s t c = total s t c := by
  unfold Rebalance.gap swings
  rw [h.pairs]
  exact sub_zero _

/-- **Rebalancing conserves money if all is in order.** Every balance covers what is locked and reserved, and
once all intents of the moves have been handled the balances of a tenant have changed by what the
other activities did. -/
theorem rebalancing_conserves {s : Desk} (hs : Started s) (acts : List (Action Task Answer))
    (hnew : Meets program (AtSteps TakesNewID) (.init s) acts) (horder : Meets program (AtSteps InOrder) (.init s) acts)
    (t : UUID) (c : Currency) :
    Covers (run (System.act program) (.init s) acts).state.treasury ∧
    ((run (System.act program) (.init s) acts).state.db.outbox = [] →
      total (run (System.act program) (.init s) acts).state t c =
        total s t c + accum (System.act program) (otherChange t c) (.init s) acts) := by
  have hboth := along_and hnew horder
  have hstep : ∀ (S : Shop) act, Sound S →
      AtSteps TakesNewID S.state S.positions act ∧ AtSteps InOrder S.state S.positions act → Sound (S.act program act) :=
    fun S act hS hact => (act_sound hS hact.1 hact.2).1
  have hsound := run_preserves hstep hs.sound hboth
  refine ⟨fun k m hm => (hsound.books.fits k m hm).covered, fun hdone => ?_⟩
  have hgap := run_accum (F := fun S : Shop => gap S.state t c) hstep
    (fun S act hS hact => (act_sound hS hact.1 hact.2).2 t c) hs.sound hboth
  have hstart : gap (System.init s : Shop).state t c = total s t c := hs.gap t c
  rw [hstart] at hgap
  rw [← hgap]
  show total _ t c = total _ t c - swings _ t c
  rw [swings_settled hsound.books hdone, sub_zero]

/-! ### Two runs -/

instance (s : Desk) (id : UUID) : Decidable (s.Pending id) := inferInstanceAs (Decidable (∃ i ∈ s.db.outbox, _))

instance (s : Desk) (e : CallEnv) (i : PositionIntent) : Decidable (Takes s e i) := inferInstanceAs (Decidable (_ ∨ _ ∧ _))

instance (s : Desk) (a : Answer) (i : PositionIntent) : Decidable (InStep s a i) :=
  @decidable_of_iff _ (_ ∧ _ ∧ _) ⟨fun h => ⟨h.1, h.2.1, h.2.2⟩, fun h => ⟨h.once, h.withdrawal, h.topUp⟩⟩
    (@instDecidableAnd _ _ inferInstance (@instDecidableAnd _ _ inferInstance inferInstance))

instance (w : World) (a : Answer) (st : Treasury.Step) : Decidable (Alone w a st) :=
  @instDecidableAnd _ _ (decidable_of_iff (a.overlap.isNone = true) Option.isNone_iff_eq_none) inferInstance

instance : ∀ (s : Desk) (a : Answer) (g : Point), Decidable (InOrder s a g) := by
  intro s a g
  cases g with
  | activity act => cases act <;> unfold InOrder <;> infer_instance
  | _ => unfold InOrder; infer_instance

instance : ∀ (s : Desk) (a : Answer) (g : Point), Decidable (TakesNewID s a g) := by
  intro s a g
  cases g <;> unfold TakesNewID <;> infer_instance

instance (ok : Desk → Answer → Point → Prop) [∀ s a g, Decidable (ok s a g)] :
    ∀ (s : Desk) (ps : List (Pos Point Unit)) (act : Action Task Answer), Decidable (AtSteps ok s ps act) := by
  intro s ps act
  cases act <;> unfold AtSteps <;> infer_instance

def surplusKey : PositionKey := ⟨1, "USD", "bank:usd"⟩

def lowKey : PositionKey := ⟨1, "USD", "crypto:usd"⟩

def sampleDesk : Desk where
  treasury :=
    let w := single surplusKey ⟨11, 0, 1000000000, 0, 0⟩
    { w with mgr := w.mgr.setPosition lowKey ⟨12, 100, 0, 0, 0⟩ }
  tenantIndex := fun t => if t = 1 then [surplusKey, lowKey] else []
  targetBalance := fun k => if k = lowKey then 500 else 0
  db := ⟨[], []⟩
  recentRebalances := []
  pairs := []
  applied := []

theorem sampleDesk_positions (h : sampleDesk.treasury.mgr.positions k = some m) :
    k = lowKey ∧ m = ⟨12, 100, 0, 0, 0⟩ ∨ k = surplusKey ∧ m = ⟨11, 0, 1000000000, 0, 0⟩ := by
  have h : update (fun k' => if k' = surplusKey then some (⟨11, 0, 1000000000, 0, 0⟩ : PositionState) else none) lowKey
      (some ⟨12, 100, 0, 0, 0⟩) k = some m := h
  by_cases hlow : k = lowKey
  · rw [hlow, update_self] at h
    cases h
    exact .inl ⟨hlow, rfl⟩
  · rw [update_of_ne hlow] at h
    split at h
    · cases h
      exact .inr ⟨‹_›, rfl⟩
    · cases h

theorem sampleDesk_started : Started sampleDesk where
  indexed :=
    { nodup := fun t => by
        unfold sampleDesk
        dsimp only
        split <;> decide
      tenant := fun t k hk => by
        unfold sampleDesk at hk
        dsimp only at hk
        split at hk
        · rename_i ht
          rw [ht]
          rcases mem_pair.1 hk with rfl | rfl <;> rfl
        · cases hk
      complete := fun k m hm => by
        rcases sampleDesk_positions hm with ⟨rfl, -⟩ | ⟨rfl, -⟩ <;> decide }
  fits := fun k m hm => by
    rcases sampleDesk_positions hm with ⟨-, rfl⟩ | ⟨-, rfl⟩ <;> exact ⟨by decide, by decide, by decide, by decide⟩
  pairs := rfl
  applied := rfl
  outbox := rfl

def sampleCycle : List (Action Task Answer) :=
  [.start (.cycle [1]), .step 0 {}, .step 0 {}, .step 0 { id := 101 }, .step 0 { id := 102 }, .step 0 {}, .step 0 {}]

def executed : List (Action Task Answer) :=
  [.start (.deliver 102), .step 1 { reply := .error }, .start (.deliver 101), .step 2 {}, .start (.deliver 102), .step 3 {}]

theorem executed_conserves :
    balanceOf (run (System.act program) (.init sampleDesk) (sampleCycle ++ executed)).state.treasury lowKey = 500000000 ∧
    total (run (System.act program) (.init sampleDesk) (sampleCycle ++ executed)).state 1 "USD" =
      total sampleDesk 1 "USD" +
        accum (System.act program) (otherChange 1 "USD") (.init sampleDesk) (sampleCycle ++ executed) :=
  ⟨by decide +kernel, (rebalancing_conserves sampleDesk_started (sampleCycle ++ executed) (by decide +kernel)
    (by decide +kernel) 1 "USD").2 (by decide +kernel)⟩

def overtaken : List (Action Task Answer) :=
  [.start (.activity (.call ⟨0, .ok, true, .ok⟩ (.op .reserve surplusKey 800 7 ""))), .step 1 {},
    .start (.deliver 101), .step 2 {}, .start (.deliver 102), .step 3 {}]

/-- **Money is created**: the debit fails, the credit does not. -/
theorem money_created :
    (run (System.act program) (.init sampleDesk) (sampleCycle ++ overtaken)).state.db.outbox = [] ∧
    accum (System.act program) (otherChange 1 "USD") (.init sampleDesk) (sampleCycle ++ overtaken) = 0 ∧
    total sampleDesk 1 "USD" = 1000000000 ∧
    total (run (System.act program) (.init sampleDesk) (sampleCycle ++ overtaken)).state 1 "USD" = 1500000000 := by
  refine ⟨by decide +kernel, by decide +kernel, by decide +kernel, by decide +kernel⟩

end Settla.Rebalance
