import Settla.Lib.Groups
import Settla.Proof.Release
import Settla.Proof.Storage

/-!
# Reservations are given back

The worker acknowledges a release or consume that failed, so one error of the operation log is enough to
leave the reservation on the counter for good.
-/

namespace Settla.Node

open Lib Settla.Core Treasury List Function

/-! ## Counters and entries -/

/-- What an entry of the history added to the counter of a position. -/
def Executed.addedAt (k : PositionKey) (x : Executed) : ℤ := if positionOf x.intent = some k then x.added else 0

def Executed.transfer (x : Executed) : Option UUID := (demandOf x.intent).map Demand.transferID

theorem positionOf_eq {i : Intent} {d : Demand} (hd : demandOf i = some d) : positionOf i = some d.position := by
  cases i <;> cases hd <;> rfl

theorem reserves_sub_frees (x : Executed) (id : UUID) :
    x.reserves id - x.frees id = if x.transfer = some id then x.added else 0 := by
  obtain ⟨i, r, n⟩ := x
  cases hd : demandOf i with
  | none => cases i <;> cases hd <;> rfl
  | some d =>
    rw [reserves_eq hd, frees_eq hd]
    by_cases hop : d.op = .reserve <;> by_cases hid : d.transferID = id <;> simp [Executed.transfer, hd, hop, hid]

variable {id : UUID}

theorem groupSum_transfer {l : List Executed} {p : PositionKey} (k : PositionKey)
    (h : ∀ x ∈ l, x.transfer = some id → positionOf x.intent = some p) :
    groupSum Executed.transfer (Executed.addedAt k) (some id) l =
      if k = p then (l.map (Executed.reserves id)).sum - (l.map (Executed.frees id)).sum else 0 := by
  induction l with
  | nil => simp [groupSum]
  | cons x l ih =>
    have hx := h x mem_cons_self
    have ih := ih fun y hy => h y (mem_cons_of_mem _ hy)
    have hnet := reserves_sub_frees x id
    have hcons : groupSum Executed.transfer (Executed.addedAt k) (some id) (x :: l) =
        (if x.transfer = some id then x.addedAt k else 0) +
          groupSum Executed.transfer (Executed.addedAt k) (some id) l := by
      by_cases ht : x.transfer = some id <;> simp [groupSum, ht]
    rw [hcons, ih]
    simp only [map_cons, sum_cons]
    by_cases ht : x.transfer = some id
    · rw [if_pos ht] at hnet
      simp only [ht, if_true, Executed.addedAt, hx ht, Option.some.injEq]
      by_cases hk : k = p
      · subst hk
        simp only [if_true]
        omega
      · simp [hk, Ne.symm hk]
    · rw [if_neg ht] at hnet
      rw [if_neg ht]
      split <;> omega

/-! ## The steps -/

def Worker.Done (s : Worker) (i : Intent) : Prop := ∃ x ∈ s.history, x.intent = i ∧ x.result = .nil

structure InDueOrder (s : AckSaga) (e : CallEnv) (i : Intent) (published : Bool) : Prop where
  /-- the manager remembers the intent exactly if it took effect: its key was not dropped, and
  no other intent has the same one -/
  remembers : ∀ d, demandOf i = some d → (s.saga.worker.treasury.mgr.held d.key = true ↔ s.saga.worker.Done i)
  /-- a release or consume comes after the reserve, or finds a counter that does not cover it -/
  covered : exits i = true → ∀ d, demandOf i = some d → s.saga.worker.Reserved d.transferID ∨
    ∀ a, toMicro d.amount = some a → reservedAt s.saga.worker.treasury d.position < a
  /-- a reserve comes before a release or consume has been acknowledged -/
  first : ∀ d, demandOf i = some d → d.op = .reserve → s.saga.worker.Reserved d.transferID ∨
    ∀ j ∈ s.acked, exits j = true → ∀ d', demandOf j = some d' → d'.transferID ≠ d.transferID
  /-- the log takes a release or consume whose delivery is the last -/
  logged : exits i = true → published = true → s.saga.worker.Done i ∨ LogOK s.saga.worker.treasury e

section Decidable

instance (s : Worker) (i : Intent) : Decidable (s.Done i) :=
  inferInstanceAs (Decidable (∃ x ∈ s.history, x.intent = i ∧ x.result = .nil))

def reserveOf : Intent → Option UUID
  | .treasuryReserve p => some p.transferID
  | _ => none

theorem reserveOf_eq {i : Intent} : reserveOf i = some id ↔ ∃ p, i = .treasuryReserve p ∧ p.transferID = id := by
  cases i <;> simp [reserveOf]

instance (s : Worker) (id : UUID) : Decidable (s.Reserved id) :=
  decidable_of_iff (∃ x ∈ s.history, x.result = .nil ∧ reserveOf x.intent = some id)
    (by simp only [Worker.Reserved, reserveOf_eq])

instance (s : AckSaga) (e : CallEnv) (i : Intent) (published : Bool) : Decidable (InDueOrder s e i published) :=
  decidable_of_iff
    ((∀ d ∈ demandOf i, (s.saga.worker.treasury.mgr.held d.key = true ↔ s.saga.worker.Done i)) ∧
      (exits i = true → ∀ d ∈ demandOf i, s.saga.worker.Reserved d.transferID ∨
        ∀ a ∈ toMicro d.amount, reservedAt s.saga.worker.treasury d.position < a) ∧
      (∀ d ∈ demandOf i, d.op = .reserve → s.saga.worker.Reserved d.transferID ∨
        ∀ j ∈ s.acked, exits j = true → ∀ d' ∈ demandOf j, d'.transferID ≠ d.transferID) ∧
      (exits i = true → published = true → s.saga.worker.Done i ∨ LogOK s.saga.worker.treasury e))
    ⟨fun ⟨h₁, h₂, h₃, h₄⟩ => ⟨h₁, h₂, h₃, h₄⟩, fun ⟨h₁, h₂, h₃, h₄⟩ => ⟨h₁, h₂, h₃, h₄⟩⟩

end Decidable

def Returning (s : AckSaga) : AckStep → Prop
  | .call id inv => NoSecondRelease s.saga.store id inv
  | .execute e i published => InDueOrder s e i published
  | _ => True

/-! ## The invariant -/

def Solvent (w : World) : Prop := ∀ k ps, w.mgr.positions k = some ps →
  0 ≤ ps.lockedMicro ∧ 0 ≤ ps.reservedMicro ∧ ps.lockedMicro + ps.reservedMicro ≤ ps.balanceMicro

/-- The reservation of a transfer was made once, for its own amount. -/
def ReservedOnce (s : Saga) (id : UUID) : Prop :=
  ∃ t a, s.store.transfers id = some t ∧ 0 < t.sourceAmount ∧ toMicro t.sourceAmount = some a ∧
    s.worker.totalReserved id = a ∧ (s.worker.treasury.mgr.positions (treasuryPosition t)).isSome

structure ReturnInv (w₀ : World) (s : AckSaga) : Prop where
  ledger : LedgerInv s.saga
  closing : ∀ id t, s.saga.store.transfers id = some t → closed t.status = true →
    ∃ i ∈ intentsOf s.saga.store.outbox, exits i = true ∧ ∃ d, demandOf i = some d ∧ d.transferID = id
  reserved : ∀ id, s.saga.worker.Reserved id → ReservedOnce s.saga id
  unreserved : ∀ id, ¬ s.saga.worker.Reserved id → s.saga.worker.totalReserved id = 0
  freed : ∀ i d, demandOf i = some d → exits i = true → s.saga.worker.Done i →
    s.saga.worker.Reserved d.transferID ∧ s.saga.worker.totalFreed d.transferID = s.saga.worker.totalReserved d.transferID
  acked : ∀ i ∈ s.acked, exits i = true → ∀ d, demandOf i = some d →
    s.saga.worker.Done i ∨ ¬ s.saga.worker.Reserved d.transferID
  counter : ∀ k, reservedAt s.saga.worker.treasury k =
    reservedAt w₀ k + (s.saga.worker.history.map (Executed.addedAt k)).sum
  solvent : Solvent s.saga.worker.treasury

section

variable {w₀ : World} {s : AckSaga}

theorem transfer_position (hs : LedgerInv s.saga) (id : UUID) :
    ∃ p, (∀ x ∈ s.saga.worker.history, x.transfer = some id → positionOf x.intent = some p) ∧
      ∀ t, s.saga.store.transfers id = some t → p = treasuryPosition t := by
  -- every entry has a row, which says where its transfer reserves
  have hrow : ∀ x ∈ s.saga.worker.history, x.transfer = some id →
      ∃ t, s.saga.store.transfers id = some t ∧ positionOf x.intent = some (treasuryPosition t) := by
    intro x hx hxt
    obtain ⟨d, hd, hid⟩ := Option.map_eq_some_iff.1 hxt
    obtain ⟨t, ht, hpos, -⟩ := hs.outbox.rows _ (hs.history x hx) d hd
    exact ⟨t, hid ▸ ht, by rw [positionOf_eq hd, hpos]⟩
  cases ht : s.saga.store.transfers id with
  | some t =>
    refine ⟨treasuryPosition t, fun x hx hxt => ?_, fun t' ht' => congrArg _ (Option.some.inj ht')⟩
    obtain ⟨t', ht', hpos⟩ := hrow x hx hxt
    cases ht.symm.trans ht'
    exact hpos
  | none =>
    refine ⟨⟨id, "", ""⟩, fun x hx hxt => ?_, fun _ ht' => by cases ht'⟩
    obtain ⟨t, ht', -⟩ := hrow x hx hxt
    cases ht.symm.trans ht'

theorem groups_nonneg (hs : LedgerInv s.saga) (k : PositionKey) (g : Option UUID) :
    0 ≤ groupSum Executed.transfer (Executed.addedAt k) g s.saga.worker.history := by
  cases g with
  | none =>
    -- an entry without a transfer has no position either
    have hzero : ∀ x ∈ s.saga.worker.history.filter fun x => x.transfer = none, x.addedAt k = 0 := by
      intro x hx
      have hnone : x.transfer = none := by simpa using (mem_filter.1 hx).2
      have hd : demandOf x.intent = none := by simpa [Executed.transfer] using hnone
      have hp : positionOf x.intent = none := by cases hi : x.intent <;> rw [hi] at hd <;> cases hd <;> rfl
      simp [Executed.addedAt, hp]
    rw [groupSum, map_congr_left hzero]
    simp
  | some id =>
    obtain ⟨p, hp, -⟩ := transfer_position hs id
    rw [groupSum_transfer k hp]
    split
    · have := hs.bound id
      simp only [Worker.totalFreed, Worker.totalReserved] at this
      omega
    · exact le_refl 0

/-- **The counter covers every reservation** that has not been freed. -/
theorem counter_covers (hw : ∀ k, 0 ≤ reservedAt w₀ k) (hs : ReturnInv w₀ s) {t : Transfer}
    (ht : s.saga.store.transfers id = some t) : s.saga.worker.totalReserved id - s.saga.worker.totalFreed id ≤
      reservedAt s.saga.worker.treasury (treasuryPosition t) := by
  obtain ⟨p, hp, heq⟩ := transfer_position hs.ledger id
  have hgroup := groupSum_transfer (treasuryPosition t) hp
  rw [if_pos (heq t ht).symm] at hgroup
  have hle := groupSum_le_sum (groups_nonneg hs.ledger (treasuryPosition t)) (some id)
  have hcounter := hs.counter (treasuryPosition t)
  have hstart := hw (treasuryPosition t)
  simp only [Worker.totalReserved, Worker.totalFreed]
  omega

/-! ## Steps of the store -/

theorem transition_closing {t : Transfer} {st : TransferStatus} {intents : List Intent} {ev : Option EventType}
    (h : Transition t st intents ev) (hst : closed st = true) (hopen : closed t.status = false) :
    ∃ i ∈ intents, exits i = true := by
  cases h with
  | fund | onRamp | onRampDone | settled => cases hst
  | refunded hs => rw [hs] at hopen; cases hopen
  | onRampFailed | settlementFailed | complete | offRampFailed | fail => exact ⟨_, mem_cons_self, rfl⟩
  | refundEmpty | refundPosted => exact ⟨_, mem_cons_of_mem _ mem_cons_self, rfl⟩

theorem ReturnInv.of_store (hs : ReturnInv w₀ s) {store : Store} (hout : OutboxInv store)
    (hclosing : ∀ id t, store.transfers id = some t → closed t.status = true →
      (∃ t₁, s.saga.store.transfers id = some t₁ ∧ closed t₁.status = true) ∨
        ∃ i ∈ intentsOf store.outbox, exits i = true ∧ ∃ d, demandOf i = some d ∧ d.transferID = id)
    (hgrows : Grows s.saga.store store) :
    ReturnInv w₀ { s with saga := { s.saga with store := store } } where
  ledger := hs.ledger.of_store hout hgrows
  closing := by
    intro id t ht hclosed
    obtain ⟨t₁, ht₁, hc⟩ | hnew := hclosing id t ht hclosed
    · obtain ⟨i, hi, hrest⟩ := hs.closing id t₁ ht₁ hc
      exact ⟨i, hgrows.intents hi, hrest⟩
    · exact hnew
  reserved := by
    intro id hres
    obtain ⟨t, a, ht, hpos, ha, htotal, hsome⟩ := hs.reserved id hres
    obtain ⟨t', ht', hamt, hposn⟩ := hgrows.rows id t ht
    exact ⟨t', a, ht', hamt ▸ hpos, hamt ▸ ha, htotal, hposn ▸ hsome⟩
  unreserved := hs.unreserved
  freed := hs.freed
  acked := hs.acked
  counter := hs.counter
  solvent := hs.solvent

theorem create_returnInv (hs : ReturnInv w₀ s) (e : CreateEnv) (tenantID : UUID) (req : CreateTransferRequest) :
    ReturnInv w₀ { s with saga := { s.saga with store := s.saga.store.create e tenantID req } } := by
  refine hs.of_store (create_outboxInv hs.ledger.outbox e tenantID req) (fun id t ht hclosed => .inl ⟨t, ?_, hclosed⟩)
    (create_grows s.saga.store e tenantID req)
  rcases create_cases s.saga.store e tenantID req with h | ⟨t₁, hrow, -, h⟩ <;> rw [h] at ht
  · exact ht
  by_cases heq : id = t₁.id
  · subst heq
    simp only [update_self, Option.some.injEq] at ht
    rw [← ht, hrow.status] at hclosed
    cases hclosed
  · simpa only [update_of_ne heq] using ht

theorem call_returnInv (hs : ReturnInv w₀ s) (id : UUID) (inv : Invocation)
    (hno : NoSecondRelease s.saga.store id inv) :
    ReturnInv w₀ { s with saga := { s.saga with store := (s.saga.store.call id inv).1 } } := by
  refine hs.of_store (call_outboxInv hs.ledger.outbox id inv hno) (fun id' t' ht' hclosed => ?_)
    (call_grows s.saga.store id inv)
  rcases call_cases s.saga.store id inv with h | ⟨t, st, intents, ev, ht, -, -, -, htr, h⟩
  · rw [h] at ht'
    exact .inl ⟨t', ht', hclosed⟩
  rw [h] at ht' ⊢
  by_cases heq : id' = id
  · subst heq
    simp only [update_self, Option.some.injEq] at ht'
    subst ht'
    cases hc : closed t.status with
    | true => exact .inl ⟨t, ht, hc⟩
    | false =>
      obtain ⟨i, hi, hexit⟩ := transition_closing htr hclosed hc
      obtain ⟨d, hd⟩ : ∃ d, demandOf i = some d := by cases i <;> first | exact ⟨_, rfl⟩ | cases hexit
      have hid := (transition_demand htr hi hd).1.trans (hs.ledger.outbox.ids id' t ht)
      rw [intentsOf_append, intentsOf_outboxEntries]
      exact .inr ⟨i, mem_append_right _ hi, hexit, d, hd, hid⟩
  · simp only [update_of_ne heq] at ht'
    exact .inl ⟨t', ht', hclosed⟩

/-! ## Executions -/

variable {i : Intent} {d : Demand} {w' : World} {r : Result} {n : ℤ}

theorem done_snoc {x : Executed} {j : Intent} :
    (Worker.mk w' (s.saga.worker.history ++ [x])).Done j ↔ s.saga.worker.Done j ∨ x.intent = j ∧ x.result = .nil := by
  simp [Worker.Done, or_and_right, exists_or]

theorem map_addedAt_snoc (hd : demandOf i = some d) (k : PositionKey) :
    ((s.saga.worker.history ++ [Executed.mk i r n]).map (Executed.addedAt k)).sum =
      (s.saga.worker.history.map (Executed.addedAt k)).sum + if d.position = k then n else 0 := by
  simp [Executed.addedAt, positionOf_eq hd]

theorem reserve_unique (hs : OutboxInv s.saga.store) {j : Intent} {d' : Demand} (hi : i ∈ intentsOf s.saga.store.outbox)
    (hj : j ∈ intentsOf s.saga.store.outbox) (hd : demandOf i = some d) (hd' : demandOf j = some d')
    (hop : d.op = .reserve) (hop' : d'.op = .reserve) (hsame : d.transferID = d'.transferID) : i = j := by
  obtain ⟨t, ht, hpos, hamt⟩ := hs.rows i hi d hd
  obtain ⟨t', ht', hpos', hamt'⟩ := hs.rows j hj d' hd'
  rw [hsame, ht'] at ht
  cases ht
  obtain ⟨-, p, rfl, -⟩ := demandOf_reserve hd hop
  obtain ⟨-, p', rfl, -⟩ := demandOf_reserve hd' hop'
  cases hd
  cases hd'
  obtain ⟨_, _, _, _, _⟩ := p
  obtain ⟨_, _, _, _, _⟩ := p'
  have hkey := hpos.trans hpos'.symm
  simp only [PositionKey.mk.injEq] at hkey hsame hamt hamt'
  obtain ⟨rfl, rfl, rfl⟩ := hkey
  subst hsame
  rw [hamt, hamt']

theorem done_of_reserved (hs : LedgerInv s.saga) (hi : i ∈ intentsOf s.saga.store.outbox) (hd : demandOf i = some d)
    (hop : d.op = .reserve) (hres : s.saga.worker.Reserved d.transferID) : s.saga.worker.Done i := by
  obtain ⟨x, hx, hnil, p, hp, hid⟩ := hres
  have hxi := hs.history x hx
  refine ⟨x, hx, ?_, hnil⟩
  rw [hp] at hxi ⊢
  exact reserve_unique hs.outbox hxi hi rfl hd rfl hop hid

theorem unfreed_of_not_done (hs : LedgerInv s.saga) (hi : i ∈ intentsOf s.saga.store.outbox) (hd : demandOf i = some d)
    (hexit : exits i = true) (hnot : ¬ s.saga.worker.Done i) : s.saga.worker.totalFreed d.transferID = 0 := by
  refine hs.unfreed _ fun x hx d' hd' hexit' hsame hnil => hnot ⟨x, hx, ?_, hnil⟩
  exact hs.outbox.exit_unique _ (hs.history x hx) i hi d' d hd' hd hexit' hexit hsame

/-- The state after an execution, with what is acknowledged then. -/
def ackRecorded (s : AckSaga) (w' : World) (i : Intent) (r : Result) (n : ℤ) (bus : List Event) (acked : List Intent) :
    AckSaga := ⟨recorded s.saga w' i r n bus, acked⟩

/-- **A release or consume of a reservation goes through** when the log takes it. -/
theorem exit_nil (hw : ∀ k, 0 ≤ reservedAt w₀ k) (hs : ReturnInv w₀ s) (hi : i ∈ intentsOf s.saga.store.outbox)
    (hd : demandOf i = some d) (hexit : exits i = true) (hres : s.saga.worker.Reserved d.transferID)
    (hnot : ¬ s.saga.worker.Done i) {e : CallEnv} (hlog : LogOK s.saga.worker.treasury e)
    (hout : Outcome (specOf d.op) s.saga.worker.treasury e d.position d.amount d.reference w' r) : r = .nil := by
  obtain ⟨t, a, ht, hpos, ha, htotal, hsome⟩ := hs.reserved _ hres
  obtain ⟨t', ht', hposn, hamt⟩ := hs.ledger.outbox.rows i hi d hd
  rw [ht] at ht'
  cases ht'
  obtain ⟨ps, hps⟩ := Option.isSome_iff_exists.1 hsome
  -- nothing has been freed, so the counter still has the whole amount
  have hfreed := unfreed_of_not_done hs.ledger hi hd hexit hnot
  have hcover := counter_covers hw hs ht
  have hle : a ≤ ps.reservedMicro := by
    simp only [reservedAt, hps] at hcover
    omega
  obtain ⟨hlocked, -, hbal⟩ := hs.solvent _ ps hps
  have hin : microInRange t.sourceAmount = true := by
    by_contra hno
    simp [toMicro, hno] at ha
  have hspec : ps.Allows a d.op ∧ (specOf d.op).breaker = none ∧ (specOf d.op).sync ≠ .rollback := by
    rcases demandOf_op hd with hop | hop | hop
    · exact absurd hop ((exits_iff hd).1 hexit)
    · rw [hop]; exact ⟨hle, rfl, by decide⟩
    · rw [hop]; exact ⟨⟨hle, by omega⟩, rfl, by decide⟩
  rw [hposn, hamt] at hout
  exact hout.nil hpos hin (.inl hspec.2.1) hps ha (guard_eq_none.2 hspec.1) hlog fun hroll => absurd hroll hspec.2.2

theorem idle_returnInv (hs : ReturnInv w₀ s) (hi : i ∈ intentsOf s.saga.store.outbox) (hd : demandOf i = some d)
    (hsame : w'.mgr.positions = s.saga.worker.treasury.mgr.positions)
    (hdup : r = .nil → s.saga.worker.treasury.mgr.held d.key = true)
    (hkeys : ∀ key, w'.mgr.held key = true → s.saga.worker.treasury.mgr.held key = true)
    (hrem : s.saga.worker.treasury.mgr.held d.key = true ↔ s.saga.worker.Done i) {acked : List Intent}
    (hack : ∀ j ∈ acked, j ∈ s.acked ∨
      j = i ∧ (exits i = true → s.saga.worker.Done i ∨ ¬ s.saga.worker.Reserved d.transferID))
    (bus : List Event) : ReturnInv w₀ (ackRecorded s w' i r 0 bus acked) := by
  have hdone : ∀ j, (recorded s.saga w' i r 0 bus).worker.Done j ↔ s.saga.worker.Done j := by
    intro j
    rw [recorded, done_snoc]
    refine or_iff_left_of_imp ?_
    rintro ⟨rfl, hnil⟩
    exact hrem.1 (hdup hnil)
  have hres : ∀ id, (recorded s.saga w' i r 0 bus).worker.Reserved id ↔ s.saga.worker.Reserved id := by
    intro id
    rw [recorded_reserved hd]
    refine or_iff_left_of_imp ?_
    rintro ⟨hnil, hop, rfl⟩
    obtain ⟨x, hx, hxi, hxnil⟩ := hrem.1 (hdup hnil)
    obtain ⟨-, p, rfl, hp⟩ := demandOf_reserve hd hop
    exact ⟨x, hx, hxnil, p, hxi, hp⟩
  have hadd : ∀ id, (recorded s.saga w' i r 0 bus).worker.totalReserved id = s.saga.worker.totalReserved id := by
    intro id; rw [recorded_totalReserved hd]; simp
  have hfree : ∀ id, (recorded s.saga w' i r 0 bus).worker.totalFreed id = s.saga.worker.totalFreed id := by
    intro id; rw [recorded_totalFreed hd]; simp
  refine ⟨idle_ledgerInv hs.ledger hi hd hdup hkeys bus, hs.closing, ?_, ?_, ?_, ?_, ?_, ?_⟩
  · intro id hid
    obtain ⟨t, a, ht, hpos, ha, htotal, hsome⟩ := hs.reserved id ((hres id).1 hid)
    exact ⟨t, a, ht, hpos, ha, (hadd id).trans htotal, by simpa [ackRecorded, recorded, hsame] using hsome⟩
  · intro id hid
    exact (hadd id).trans (hs.unreserved id fun h => hid ((hres id).2 h))
  · intro j d' hd' hexit hj
    obtain ⟨hr, hf⟩ := hs.freed j d' hd' hexit ((hdone j).1 hj)
    exact ⟨(hres _).2 hr, (hfree _).trans (hf.trans (hadd _).symm)⟩
  · intro j hj hexit d' hd'
    have hold : s.saga.worker.Done j ∨ ¬ s.saga.worker.Reserved d'.transferID := by
      rcases hack j hj with hj | ⟨rfl, hend⟩
      · exact hs.acked j hj hexit d' hd'
      · rw [hd] at hd'
        cases hd'
        exact hend hexit
    exact hold.imp (hdone j).2 fun h h' => h ((hres _).1 h')
  · intro k
    show reservedAt w' k = _ + ((s.saga.worker.history ++ [Executed.mk i r 0]).map _).sum
    rw [map_addedAt_snoc hd, reservedAt_congr hsame, hs.counter k]
    simp
  · intro k ps hps
    exact hs.solvent k ps (hsame ▸ hps)

section Took

variable {a : ℤ} {ps : PositionState} (hs : ReturnInv w₀ s) (hd : demandOf i = some d)
  (hps : s.saga.worker.treasury.mgr.positions d.position = some ps) (hallows : ps.Allows a d.op)
  (hafter : w'.mgr.positions = update s.saga.worker.treasury.mgr.positions d.position
    (some ((specOf d.op).effect.apply a ps)))

include hafter

theorem took_loaded {k : PositionKey} (h : (s.saga.worker.treasury.mgr.positions k).isSome) : (w'.mgr.positions k).isSome := by
  rw [hafter]
  by_cases heq : k = d.position
  · rw [heq, update_self]; rfl
  · rw [update_of_ne heq]; exact h

include hs hd hps

theorem took_counter (k : PositionKey) :
    reservedAt w' k = reservedAt w₀ k +
      ((s.saga.worker.history ++ [Executed.mk i .nil (sign d.op * a)]).map (Executed.addedAt k)).sum := by
  rw [map_addedAt_snoc hd]
  have hk := hs.counter k
  by_cases heq : d.position = k
  · subst heq
    simp only [reservedAt, hps] at hk
    simp only [reservedAt, hafter, update_self, Effect.apply_reserved, if_true, sign]
    omega
  · have hsame : reservedAt w' k = reservedAt s.saga.worker.treasury k := by
      simp only [reservedAt, hafter, update_of_ne (Ne.symm heq)]
    rw [hsame, hk, if_neg heq, add_zero]

include hallows

theorem took_solvent (hnn : 0 ≤ a) : Solvent w' := by
  intro k ps' hps'
  rcases Manager.position_update hafter hps' with ⟨rfl, rfl⟩ | ⟨-, hold⟩
  · obtain ⟨hl, hr, hb⟩ := hs.solvent _ ps hps
    rcases demandOf_op hd with hop | hop | hop <;> rw [hop] at hallows ⊢ <;>
      simp only [PositionState.Allows, PositionState.available] at hallows <;>
      simp only [Effect.apply_locked, Effect.apply_reserved, Effect.apply_balance, specOf_effect] <;> omega
  · exact hs.solvent k ps' hold

variable (hi : i ∈ intentsOf s.saga.store.outbox) (hfree : s.saga.worker.treasury.mgr.held d.key = false)
  (ha : toMicro d.amount = some a) (hnn : 0 ≤ a)
  (hkeys : ∀ key, w'.mgr.held key = true → key = d.key ∨ s.saga.worker.treasury.mgr.held key = true)
  (hrem : s.saga.worker.treasury.mgr.held d.key = true ↔ s.saga.worker.Done i)
  {acked : List Intent} (hack : ∀ j ∈ acked, j ∈ s.acked ∨ j = i) (bus : List Event)

include hi hfree ha hnn hkeys hrem hack

theorem reserve_returnInv (hop : d.op = .reserve) (hpos : 0 < d.amount) (hfirst : s.saga.worker.Reserved d.transferID ∨
      ∀ j ∈ s.acked, exits j = true → ∀ d', demandOf j = some d' → d'.transferID ≠ d.transferID) :
    ReturnInv w₀ (ackRecorded s w' i .nil (sign d.op * a) bus acked) := by
  have hone : sign d.op * a = a := by rw [hop]; exact one_mul a
  have hexit : exits i ≠ true := fun h => (exits_iff hd).1 h hop
  have hnot : ¬ s.saga.worker.Reserved d.transferID := by
    intro hres
    rw [hrem.2 (done_of_reserved hs.ledger hi hd hop hres)] at hfree
    cases hfree
  have hdone : ∀ j, exits j = true →
      ((recorded s.saga w' i .nil (sign d.op * a) bus).worker.Done j ↔ s.saga.worker.Done j) := by
    intro j hj
    rw [recorded, done_snoc]
    refine or_iff_left_of_imp ?_
    rintro ⟨rfl, -⟩
    exact absurd hj hexit
  have hres : ∀ id, (recorded s.saga w' i .nil (sign d.op * a) bus).worker.Reserved id ↔
      s.saga.worker.Reserved id ∨ d.transferID = id := by
    intro id
    rw [recorded_reserved hd]
    simp [hop]
  have hother : ∀ id, d.transferID ≠ id →
      (recorded s.saga w' i .nil (sign d.op * a) bus).worker.totalReserved id = s.saga.worker.totalReserved id := by
    intro id hne
    rw [recorded_totalReserved hd, if_neg fun h => hne h.2, add_zero]
  have hfreed : ∀ id, (recorded s.saga w' i .nil (sign d.op * a) bus).worker.totalFreed id =
      s.saga.worker.totalFreed id := by
    intro id; rw [recorded_totalFreed hd]; simp [hop]
  refine ⟨?_, hs.closing, ?_, ?_, ?_, ?_, took_counter hs hd hps hafter, took_solvent hs hd hps hallows hafter hnn⟩
  · rw [hone]
    exact reserve_ledgerInv hs.ledger hi hd hop ha hnn hkeys bus
  · intro id hid
    by_cases heq : d.transferID = id
    · subst heq
      obtain ⟨t, ht, hposn, hamt⟩ := hs.ledger.outbox.rows i hi d hd
      refine ⟨t, a, ht, hamt ▸ hpos, hamt ▸ ha, ?_, ?_⟩
      · show (recorded s.saga w' i .nil (sign d.op * a) bus).worker.totalReserved d.transferID = a
        rw [recorded_totalReserved hd, if_pos ⟨hop, rfl⟩, hs.unreserved _ hnot, hone, zero_add]
      · rw [← hposn]
        exact took_loaded hafter (by rw [hps]; rfl)
    · obtain ⟨t, a', ht, hpos', ha', htotal, hsome⟩ := hs.reserved id (((hres id).1 hid).resolve_right heq)
      exact ⟨t, a', ht, hpos', ha', (hother id heq).trans htotal, took_loaded hafter hsome⟩
  · intro id hid
    have hne : d.transferID ≠ id := fun h => hid ((hres id).2 (.inr h))
    exact (hother id hne).trans (hs.unreserved id fun h => hid ((hres id).2 (.inl h)))
  · intro j d' hd' hexit' hj
    obtain ⟨hr, hf⟩ := hs.freed j d' hd' hexit' ((hdone j hexit').1 hj)
    have hne : d.transferID ≠ d'.transferID := fun h => hnot (h ▸ hr)
    exact ⟨(hres _).2 (.inl hr), (hfreed _).trans (hf.trans (hother _ hne).symm)⟩
  · intro j hj hexit' d' hd'
    have hjold : j ∈ s.acked := (hack j hj).resolve_right fun h => hexit (h ▸ hexit')
    rcases hs.acked j hjold hexit' d' hd' with hdn | hno
    · exact .inl ((hdone j hexit').2 hdn)
    · -- no release of this transfer has been acknowledged yet
      have hne := hfirst.resolve_left hnot j hjold hexit' d' hd'
      exact .inr fun h => ((hres _).1 h).elim hno hne.symm

theorem exit_returnInv (hexit : exits i = true) (hres : s.saga.worker.Reserved d.transferID) :
    ReturnInv w₀ (ackRecorded s w' i .nil (sign d.op * a) bus acked) := by
  have hop := (exits_iff hd).1 hexit
  have hminus : sign d.op * a = -a := by
    rcases demandOf_op hd with h | h | h
    · exact absurd h hop
    · rw [h]; exact neg_one_mul a
    · rw [h]; exact neg_one_mul a
  have hnot : ¬ s.saga.worker.Done i := by
    intro h
    rw [hrem.2 h] at hfree
    cases hfree
  have hnone := unfreed_of_not_done hs.ledger hi hd hexit hnot
  have hres' : ∀ id, (recorded s.saga w' i .nil (sign d.op * a) bus).worker.Reserved id ↔
      s.saga.worker.Reserved id := by
    intro id; rw [recorded_reserved hd]; simp [hop]
  have hadd : ∀ id, (recorded s.saga w' i .nil (sign d.op * a) bus).worker.totalReserved id =
      s.saga.worker.totalReserved id := by
    intro id; rw [recorded_totalReserved hd]; simp [hop]
  have hother : ∀ id, d.transferID ≠ id →
      (recorded s.saga w' i .nil (sign d.op * a) bus).worker.totalFreed id = s.saga.worker.totalFreed id := by
    intro id hne
    rw [recorded_totalFreed hd, if_neg fun h => hne h.2, add_zero]
  -- the amount is the one of the row, which the reserve has added
  have hself : (recorded s.saga w' i .nil (sign d.op * a) bus).worker.totalFreed d.transferID =
      s.saga.worker.totalReserved d.transferID := by
    obtain ⟨t, a', ht, -, ha', htotal, -⟩ := hs.reserved _ hres
    obtain ⟨t', ht', -, hamt⟩ := hs.ledger.outbox.rows i hi d hd
    rw [ht] at ht'
    cases ht'
    rw [← hamt, ha] at ha'
    cases ha'
    rw [recorded_totalFreed hd, if_pos ⟨hop, rfl⟩, hnone, hminus, htotal]
    omega
  refine ⟨?_, hs.closing, ?_, ?_, ?_, ?_, took_counter hs hd hps hafter, took_solvent hs hd hps hallows hafter hnn⟩
  · rw [hminus]
    refine exit_ledgerInv hs.ledger hi hd hop ha hfree ?_ hkeys bus
    intro _ d' hd'
    rw [hd] at hd'
    cases hd'
    exact ⟨hres, hrem.2⟩
  · intro id hid
    obtain ⟨t, a', ht, hpos', ha', htotal, hsome⟩ := hs.reserved id ((hres' id).1 hid)
    exact ⟨t, a', ht, hpos', ha', (hadd id).trans htotal, took_loaded hafter hsome⟩
  · intro id hid
    exact (hadd id).trans (hs.unreserved id fun h => hid ((hres' id).2 h))
  · intro j d' hd' hexit' hj
    by_cases heq : d.transferID = d'.transferID
    · rw [← heq]
      exact ⟨(hres' _).2 hres, hself.trans (hadd _).symm⟩
    · have hold : s.saga.worker.Done j := by
        refine (done_snoc.1 hj).resolve_right ?_
        rintro ⟨rfl, -⟩
        rw [hd] at hd'
        cases hd'
        exact heq rfl
      obtain ⟨hr, hf⟩ := hs.freed j d' hd' hexit' hold
      exact ⟨(hres' _).2 hr, (hother _ heq).trans (hf.trans (hadd _).symm)⟩
  · intro j hj hexit' d' hd'
    rcases hack j hj with hj | rfl
    · rcases hs.acked j hj hexit' d' hd' with hdn | hno
      · exact .inl (done_snoc.2 (.inl hdn))
      · exact .inr fun h => hno ((hres' _).1 h)
    · exact .inl (done_snoc.2 (.inr ⟨rfl, rfl⟩))

end Took

theorem execute_returnInv (text : Err → String) (hw : ∀ k, 0 ≤ reservedAt w₀ k) (hs : ReturnInv w₀ s) (e : CallEnv)
    (i : Intent) (published : Bool) (hord : InDueOrder s e i published) :
    ReturnInv w₀ (s.step text (.execute e i published)) := by
  simp only [AckSaga.step, Saga.step]
  split
  case isFalse hi =>
    rw [if_neg fun h => hi h.1]
    exact hs
  rename_i hi
  rcases execute_worked text s.saga.worker e i with ⟨hno, hsame⟩ | ⟨d, w', r, n, hd, hout, hworked, hnew⟩
  · have hnone : (s.saga.worker.execute text e i).2 = none := by cases i <;> first | rfl | cases hno
    simpa [hsame, hnone] using hs
  set acked := if i ∈ intentsOf s.saga.store.outbox ∧ published ∧ (s.saga.worker.execute text e i).2.isSome then
    s.acked ++ [i] else s.acked with hacked
  have hack : ∀ j ∈ acked, j ∈ s.acked ∨ j = i ∧ published = true := by
    intro j hj
    rw [hacked] at hj
    split at hj
    · rename_i hpub
      rcases mem_append.1 hj with hj | hj
      · exact .inl hj
      · exact .inr ⟨mem_singleton.1 hj, hpub.2.1⟩
    · exact .inl hj
  rw [hnew]
  cases hworked with
  | idle hsame hdup hkeys =>
    refine idle_returnInv hs hi hd hsame hdup hkeys (hord.remembers d hd) (fun j hj => ?_) _
    refine (hack j hj).imp id fun hnew => ⟨hnew.1, fun hexit => ?_⟩
    by_contra hboth
    obtain ⟨hnot, hres⟩ := not_or.1 hboth
    -- the log took it, so it went through after all
    have hnil := exit_nil hw hs hi hd hexit (not_not.1 hres) hnot ((hord.logged hexit hnew.2).resolve_left hnot) hout
    exact hnot ((hord.remembers d hd).1 (hdup hnil))
  | took hfree hpos ha hnn hps hallows hafter hkeys =>
    have hack' : ∀ j ∈ acked, j ∈ s.acked ∨ j = i := fun j hj => (hack j hj).imp id And.left
    by_cases hop : d.op = .reserve
    · exact reserve_returnInv hs hd hps hallows hafter hi hfree ha hnn hkeys (hord.remembers d hd) hack' _ hop hpos
        (hord.first d hd hop)
    · have hexit := (exits_iff hd).2 hop
      refine exit_returnInv hs hd hps hallows hafter hi hfree ha hnn hkeys (hord.remembers d hd) hack' _ hexit ?_
      -- the counter covers the amount, so the reserve came first
      refine (hord.covered hexit d hd).resolve_right fun hless => ?_
      have hlt := hless _ ha
      simp only [reservedAt, hps] at hlt
      rcases demandOf_op hd with h | h | h
      · exact hop h
      · rw [h] at hallows
        exact absurd hallows (not_le.2 hlt)
      · rw [h] at hallows
        exact absurd hallows.1 (not_le.2 hlt)

theorem flush_returnInv (hs : ReturnInv w₀ s) (e : FlushEnv) (text : Err → String) :
    ReturnInv w₀ (s.step text (.flush e)) := by
  obtain ⟨hpos, hkeys, -⟩ := flushOnce_frame s.saga.worker.treasury e
  have hheld : ∀ key, (s.saga.worker.treasury.flushOnce e).mgr.held key = s.saga.worker.treasury.mgr.held key :=
    fun key => Manager.held_congr hkeys
  refine ⟨⟨hs.ledger.outbox, hs.ledger.history, ?_, hs.ledger.covered, hs.ledger.nonneg, hs.ledger.unfreed,
    hs.ledger.bound⟩, hs.closing, ?_, hs.unreserved, hs.freed, hs.acked, ?_, ?_⟩
  · intro id hid
    exact hs.ledger.keys id ((hheld _).symm.trans hid)
  · intro id hid
    obtain ⟨t, a, ht, hamt, ha, htotal, hsome⟩ := hs.reserved id hid
    exact ⟨t, a, ht, hamt, ha, htotal, hpos.symm ▸ hsome⟩
  · intro k
    exact (reservedAt_congr hpos k).trans (hs.counter k)
  · intro k ps hps
    exact hs.solvent k ps (hpos ▸ hps)

theorem step_returnInv (text : Err → String) (hw : ∀ k, 0 ≤ reservedAt w₀ k) (s : AckSaga) (st : AckStep)
    (hs : ReturnInv w₀ s) (hst : Returning s st) : ReturnInv w₀ (s.step text st) := by
  cases st with
  | create e tenantID req => exact create_returnInv hs e tenantID req
  | call id inv => exact call_returnInv hs id inv hst
  | execute e i published => exact execute_returnInv text hw hs e i published hst
  | flush e => exact flush_returnInv hs e text

end

theorem start_returnInv {w : World} (hkeys : ∀ key, w.mgr.held key = false) (hsolvent : Solvent w) :
    ReturnInv w (AckSaga.start w) where
  ledger := start_ledgerInv hkeys
  closing := by intro id t ht; cases ht
  reserved := by rintro id ⟨x, hx, -⟩; cases hx
  unreserved := by intro id _; rfl
  freed := by rintro i d hd hexit ⟨x, hx, -⟩; cases hx
  acked := by intro i hi; cases hi
  counter := by intro k; exact (add_zero _).symm
  solvent := hsolvent

/-- All release and consume intents of the transfer have been acknowledged. -/
def AckSaga.settled (s : AckSaga) (id : UUID) : Prop :=
  ∀ i ∈ intentsOf s.saga.store.outbox, exits i = true → ∀ d, demandOf i = some d → d.transferID = id → i ∈ s.acked

instance (s : AckSaga) (id : UUID) : Decidable (s.settled id) := by unfold AckSaga.settled; infer_instance

/-- **No leaked reservation.** In every run of `Returning` steps: once a transfer whose Reserve
succeeded is COMPLETED, FAILED or REFUNDED and all its release and consume intents have been
acknowledged, it has freed all that it reserved, and the counter of its position is what other
transfers have made of it. -/
theorem reservation_returned (text : Err → String) (w : World) (hkeys : ∀ key, w.mgr.held key = false)
    (hsolvent : Solvent w) (steps : List AckStep)
    (h : Along (AckSaga.step text) Returning (AckSaga.start w) steps) (id : UUID) (t : Transfer) :
    let s := run (AckSaga.step text) (AckSaga.start w) steps
    s.saga.worker.Reserved id → s.saga.store.transfers id = some t →
    t.status = .completed ∨ t.status = .failed ∨ t.status = .refunded → s.settled id →
      s.saga.worker.totalFreed id = s.saga.worker.totalReserved id ∧
      reservedAt s.saga.worker.treasury (treasuryPosition t) = reservedAt w (treasuryPosition t) +
        restSum Executed.transfer (Executed.addedAt (treasuryPosition t)) (some id) s.saga.worker.history := by
  intro s hres ht hstatus hsettled
  have hw : ∀ k, 0 ≤ reservedAt w k := by
    intro k
    unfold reservedAt
    split
    · rename_i ps hps
      exact (hsolvent k ps hps).2.1
    · exact le_refl 0
  have hs : ReturnInv w s := run_preserves (step_returnInv text hw) (start_returnInv hkeys hsolvent) h
  have hclosed : closed t.status = true := by rcases hstatus with hst | hst | hst <;> rw [hst] <;> rfl
  obtain ⟨i, hi, hexit, d, hd, rfl⟩ := hs.closing id t ht hclosed
  have hdone := (hs.acked i (hsettled i hi hexit d hd rfl) hexit d hd).resolve_right (not_not.2 hres)
  obtain ⟨-, hfreed⟩ := hs.freed i d hd hexit hdone
  refine ⟨hfreed, ?_⟩
  -- the entries of the transfer itself cancel out
  obtain ⟨p, hp, heq⟩ := transfer_position hs.ledger d.transferID
  have hgroup := groupSum_transfer (treasuryPosition t) hp
  have hsplit := groupSum_add_restSum Executed.transfer (Executed.addedAt (treasuryPosition t)) (some d.transferID)
    s.saga.worker.history
  have hcounter := hs.counter (treasuryPosition t)
  simp only [Worker.totalFreed, Worker.totalReserved] at hfreed
  omega

theorem poundTreasury_solvent : Solvent poundTreasury := by
  intro k ps hps
  by_cases hk : k = ⟨1, "GBP", "bank:gbp"⟩
  · subst hk
    cases hps
    decide
  · have hnone : poundTreasury.mgr.positions k = none := update_of_ne hk _ _
    rw [hnone] at hps
    cases hps

def ackCall (id : UUID) (c : EngineCall) : AckStep := .call id (ofTenant c)

def ackDeliver (i : Intent) (wal : StoreResult) (published : Bool) : AckStep := .execute ⟨0, wal, true, .ok⟩ i published

def failing : List AckStep :=
  [.create (sampleEnv 7) 1 sampleRequest, ackCall 7 .fundTransfer, ackDeliver (sampleReserve 7) .ok true,
    ackCall 7 .initiateOnRamp, ackCall 7 (.failTransfer "timeout" "ONRAMP")]

def releasedTwice : List AckStep :=
  failing ++ [ackDeliver (sampleRelease 7 "transfer_failed") .err false,
    ackDeliver (sampleRelease 7 "transfer_failed") .ok true]

theorem reservation_returned_failed :
    let s := run (AckSaga.step fun _ => "") (AckSaga.start poundTreasury) releasedTwice
    s.saga.worker.totalReserved 7 = 1000000000 ∧ s.saga.worker.totalFreed 7 = s.saga.worker.totalReserved 7 := by
  have hrun : Along (AckSaga.step fun _ => "") Returning (AckSaga.start poundTreasury) releasedTwice :=
    ⟨trivial, trivial, (by decide +kernel : InDueOrder _ _ _ _), trivial, trivial, (by decide +kernel : InDueOrder _ _ _ _),
      (by decide +kernel : InDueOrder _ _ _ _), trivial⟩
  have hrow : ((run (AckSaga.step fun _ => "") (AckSaga.start poundTreasury) releasedTwice).saga.store.transfers 7).map
      Transfer.status = some .failed := by decide +kernel
  obtain ⟨t, ht, hstatus⟩ := Option.map_eq_some_iff.1 hrow
  exact ⟨by decide +kernel, (reservation_returned (fun _ => "") poundTreasury (fun _ => rfl) poundTreasury_solvent
    releasedTwice hrun 7 t (by decide +kernel) ht (.inr (.inl hstatus)) (by decide +kernel)).1⟩

/-- The reservation of transfer 7 is still there, although the transfer is over and there is
nothing left to deliver. -/
def Leaks (steps : List AckStep) (status : TransferStatus) : Prop :=
  let s := run (AckSaga.step fun _ => "") (AckSaga.start poundTreasury) steps
  (s.saga.store.transfers 7).map Transfer.status = some status ∧ s.saga.worker.Reserved 7 ∧ s.settled 7 ∧
    s.saga.worker.totalReserved 7 = 1000000000 ∧ s.saga.worker.totalFreed 7 = 0 ∧
    reservedAt s.saga.worker.treasury ⟨1, "GBP", "bank:gbp"⟩ = 1000000000

instance (steps : List AckStep) (status : TransferStatus) : Decidable (Leaks steps status) :=
  inferInstanceAs (Decidable (_ ∧ _))

/-- **A leaked reservation.** A release or a consume meets an error of the log, and the message is
gone. Or the release is delivered before the reserve, and is gone when the reserve comes. -/
theorem reservation_leaked :
    Leaks (failing ++ [ackDeliver (sampleRelease 7 "transfer_failed") .err true]) .failed ∧
    Leaks [.create (sampleEnv 7) 1 sampleRequest, ackCall 7 .fundTransfer, ackDeliver (sampleReserve 7) .ok true,
      ackCall 7 .initiateOnRamp, ackCall 7 (.handleOnRampResult ⟨true, "", ""⟩),
      ackCall 7 (.handleSettlementResult ⟨true, "", ""⟩), ackCall 7 (.handleOffRampResult ⟨true, "", ""⟩),
      ackDeliver (.treasuryConsume ⟨7, 1, "GBP", 1000, "bank:gbp"⟩) .err true] .completed ∧
    Leaks [.create (sampleEnv 7) 1 sampleRequest, ackCall 7 .fundTransfer, ackCall 7 .initiateRefund,
      ackCall 7 (.handleRefundResult ⟨true, "", ""⟩), ackDeliver (sampleRelease 7 "refund") .ok true,
      ackDeliver (sampleReserve 7) .ok true] .refunded := by
  refine ⟨?_, ?_, ?_⟩ <;> decide +kernel

end Settla.Node
