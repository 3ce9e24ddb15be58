import Settla.Proof.Saga
import Settla.Proof.TreasuryWorker

/-!
# Releases against reservations

What the release and consume intents of a transfer take off the reserved counter,
compared with what its own reserve intent added.
-/

namespace Settla.Node

open Lib Settla.Core Treasury List

/-! ## The treasury intents of the engine -/

def treasuryPosition (t : Transfer) : PositionKey := ⟨t.tenantID, t.sourceCurrency, location t⟩

/-- The statuses a transfer reaches by giving its reservation up. -/
def closed : TransferStatus → Bool
  | .failed | .refunding | .refunded | .completed => true
  | _ => false

/-- The intents that take a reservation back. -/
def exits : Intent → Bool
  | .treasuryRelease _ | .treasuryConsume _ => true
  | _ => false

theorem exits_iff {i : Intent} {d : Demand} (hd : demandOf i = some d) : exits i = true ↔ d.op ≠ .reserve := by
  cases i <;> cases hd <;> simp [exits]

section

variable {t : Transfer} {st : TransferStatus} {intents : List Intent} {ev : Option EventType}

theorem transition_demand (h : Transition t st intents ev) {i : Intent} (hi : i ∈ intents) {d : Demand}
    (hd : demandOf i = some d) :
    d.transferID = t.id ∧ d.position = treasuryPosition t ∧ d.amount = t.sourceAmount := by
  cases h <;>
    simp [reserveIntent, releaseIntent, consumeIntent, webhookIntent] at hi <;>
    rcases hi with rfl | rfl | rfl <;> cases hd <;> exact ⟨rfl, rfl, rfl⟩

theorem transition_exits (h : Transition t st intents ev) :
    intents.filter exits = [] ∨
    ∃ i, intents.filter exits = [i] ∧ closed st = true ∧
      (closed t.status = true → t.status = .failed ∧ st = .refunding) := by
  cases h with
  | fund | onRamp | onRampDone | settled | refunded => exact .inl rfl
  | onRampFailed hs | settlementFailed hs | complete hs | offRampFailed hs =>
    exact .inr ⟨_, rfl, rfl, by rw [hs]; simp [closed]⟩
  | fail hcan =>
    refine .inr ⟨_, rfl, rfl, fun hclosed => ?_⟩
    have hmem : TransferStatus.failed ∈ validTransitions t.status := by
      simpa [Transfer.canTransitionTo] using hcan
    -- the statuses from which a transfer can fail are open ones
    generalize t.status = st at hmem hclosed
    cases st <;> simp [closed, validTransitions] at hmem hclosed
  | refundEmpty hs =>
    refine .inr ⟨_, rfl, rfl, fun hclosed => ?_⟩
    rcases hs with hs | hs
    · rw [hs] at hclosed; cases hclosed
    · exact ⟨hs.1, rfl⟩
  | refundPosted hs => exact .inr ⟨_, rfl, rfl, fun _ => ⟨hs, rfl⟩⟩

theorem transition_exit (h : Transition t st intents ev) {i : Intent} (hi : i ∈ intents) (hexit : exits i = true) :
    closed st = true ∧ (closed t.status = true → t.status = .failed ∧ st = .refunding) ∧
      ∀ j ∈ intents, exits j = true → j = i := by
  have hmem : i ∈ intents.filter exits := mem_filter.2 ⟨hi, hexit⟩
  rcases transition_exits h with hnil | ⟨x, hx, hst, hrefund⟩
  · rw [hnil] at hmem; cases hmem
  refine ⟨hst, hrefund, fun j hj hexit' => ?_⟩
  have hmem' : j ∈ intents.filter exits := mem_filter.2 ⟨hj, hexit'⟩
  -- there is only one, so the two are equal
  rw [hx, mem_singleton] at hmem hmem'
  rw [hmem, hmem']

theorem transition_closed (h : Transition t st intents ev) (hclosed : closed t.status = true) :
    closed st = true := by
  have hedge := h.edge
  generalize t.status = st₀ at hedge hclosed
  cases st₀ <;> simp [closed, validTransitions] at hedge hclosed <;> subst hedge <;> rfl

end

/-! ## The outbox -/

/-- The treasury intents of a transfer agree with its row, and at most one takes the reservation
back. -/
structure OutboxInv (s : Store) : Prop where
  ids : ∀ id t, s.transfers id = some t → t.id = id
  rows : ∀ i ∈ intentsOf s.outbox, ∀ d, demandOf i = some d →
    ∃ t, s.transfers d.transferID = some t ∧ d.position = treasuryPosition t ∧ d.amount = t.sourceAmount
  exit_closed : ∀ i ∈ intentsOf s.outbox, ∀ d, demandOf i = some d → exits i = true →
    ∀ t, s.transfers d.transferID = some t → closed t.status = true
  exit_unique : ∀ i ∈ intentsOf s.outbox, ∀ j ∈ intentsOf s.outbox, ∀ d d', demandOf i = some d →
    demandOf j = some d' → exits i = true → exits j = true → d.transferID = d'.transferID → i = j

def NoSecondRelease (s : Store) (id : UUID) (inv : Invocation) : Prop :=
  match inv.call with
  | .initiateRefund => ∀ t, s.transfers id = some t → t.status ≠ .failed
  | _ => True

theorem noSecondRelease_moves {s : Store} {id : UUID} {inv : Invocation} (h : NoSecondRelease s id inv)
    {t : Transfer} (ht : s.transfers id = some t) (hfailed : t.status = .failed) :
    (.failed, .refunding) ∉ inv.call.moves := by
  unfold NoSecondRelease at h
  split at h
  · exact absurd hfailed (h t ht)
  · rename_i hcall
    cases hc : inv.call with
    | initiateRefund => exact absurd hc hcall
    | _ => simp [EngineCall.moves, failMoves]

/-- No intent is lost, and the rows stay, with their amounts and positions. -/
structure Grows (s s' : Store) : Prop where
  intents : intentsOf s.outbox ⊆ intentsOf s'.outbox
  rows : ∀ id t, s.transfers id = some t → ∃ t', s'.transfers id = some t' ∧ t'.sourceAmount = t.sourceAmount ∧
    treasuryPosition t' = treasuryPosition t

theorem Grows.refl (s : Store) : Grows s s := ⟨Subset.refl _, fun _ t ht => ⟨t, ht, rfl, rfl⟩⟩

theorem create_grows (s : Store) (e : CreateEnv) (tenantID : UUID) (req : CreateTransferRequest) :
    Grows s (s.create e tenantID req) := by
  rcases create_cases s e tenantID req with h | ⟨t, -, hnone, h⟩ <;> rw [h]
  · exact .refl s
  · refine ⟨by rw [intentsOf_append]; exact subset_append_left _ _, fun id t' ht' => ⟨t', ?_, rfl, rfl⟩⟩
    have hne : id ≠ t.id := by rintro rfl; rw [hnone] at ht'; cases ht'
    simpa [hne] using ht'

theorem call_grows (s : Store) (id : UUID) (inv : Invocation) : Grows s (s.call id inv).1 := by
  rcases call_cases s id inv with h | ⟨t, st, intents, ev, ht, -, -, -, -, h⟩ <;> rw [h]
  · exact .refl s
  · refine ⟨by rw [intentsOf_append]; exact subset_append_left _ _, fun id' t' ht' => ?_⟩
    by_cases heq : id' = id
    · subst heq
      rw [ht] at ht'
      cases ht'
      -- a step changes neither amount nor currency
      exact ⟨t.advance st, by simp, rfl, rfl⟩
    · exact ⟨t', by simpa [heq] using ht', rfl, rfl⟩

theorem create_outboxInv {s : Store} (hs : OutboxInv s) (e : CreateEnv) (tenantID : UUID)
    (req : CreateTransferRequest) : OutboxInv (s.create e tenantID req) := by
  have hids := create_ids hs.ids e tenantID req
  rcases create_cases s e tenantID req with h | ⟨t, hrow, hnone, h⟩
  · rw [h]; exact hs
  rw [h] at hids ⊢
  have hint : intentsOf (s.outbox ++
      setCorrelationID [newOutboxEvent "transfer" e.newID tenantID .transferCreated t.id] e.newID)
        = intentsOf s.outbox := by
    rw [intentsOf_append]
    exact append_nil _
  -- the ID of the new row is free, and every intent has a row
  have hold : ∀ i ∈ intentsOf s.outbox, ∀ d, demandOf i = some d → d.transferID ≠ t.id := by
    intro i hi d hd heq
    obtain ⟨t', ht', -⟩ := hs.rows i hi d hd
    rw [heq, hnone] at ht'
    cases ht'
  refine ⟨hids, ?_, ?_, ?_⟩
  · intro i hi d hd
    rw [hint] at hi
    simpa [hold i hi d hd] using hs.rows i hi d hd
  · intro i hi d hd hexit t' ht'
    rw [hint] at hi
    simp [hold i hi d hd] at ht'
    exact hs.exit_closed i hi d hd hexit t' ht'
  · rw [hint]; exact hs.exit_unique

theorem call_outboxInv {s : Store} (hs : OutboxInv s) (id : UUID) (inv : Invocation)
    (hno : NoSecondRelease s id inv) : OutboxInv (s.call id inv).1 := by
  have hids := call_ids hs.ids id inv
  have hgrows := call_grows s id inv
  rcases call_cases s id inv with h | ⟨t, st, intents, ev, ht, -, -, hmove, htr, h⟩
  · rw [h]; exact hs
  have hid := hs.ids id t ht
  rw [h] at hids hgrows ⊢
  -- an intent of this step that takes the reservation back finds none before it
  have hfresh : ∀ i ∈ intents, exits i = true → closed t.status = false := by
    intro i hi hexit
    rw [Bool.eq_false_iff]
    intro hclosed
    obtain ⟨hfailed, rfl⟩ := (transition_exit htr hi hexit).2.1 hclosed
    exact noSecondRelease_moves hno ht hfailed (hfailed ▸ hmove)
  have hold : ∀ i ∈ intentsOf s.outbox, ∀ d, demandOf i = some d → exits i = true → d.transferID = id →
      ∀ j ∈ intents, exits j = true → False := by
    intro i hi d hd hexit hdid j hj hexit'
    have hclosed := hs.exit_closed i hi d hd hexit t (hdid ▸ ht)
    rw [hfresh j hj hexit'] at hclosed
    cases hclosed
  refine ⟨hids, ?_, ?_, ?_⟩
  · intro i hi d hd
    rw [intentsOf_append, intentsOf_outboxEntries] at hi
    rcases mem_append.1 hi with hi | hi
    · obtain ⟨t', ht', hpos, hamt⟩ := hs.rows i hi d hd
      obtain ⟨t₁, ht₁, hamt₁, hpos₁⟩ := hgrows.rows _ t' ht'
      exact ⟨t₁, ht₁, hpos.trans hpos₁.symm, hamt.trans hamt₁.symm⟩
    · obtain ⟨hdid, hpos, hamt⟩ := transition_demand htr hi hd
      exact ⟨t.advance st, by simp [hdid, hid], hpos, hamt⟩
  · intro i hi d hd hexit t' ht'
    rw [intentsOf_append, intentsOf_outboxEntries] at hi
    by_cases heq : d.transferID = id
    · simp [heq] at ht'
      subst ht'
      rcases mem_append.1 hi with hi | hi
      · exact transition_closed htr (hs.exit_closed i hi d hd hexit t (heq ▸ ht))
      · exact (transition_exit htr hi hexit).1
    · simp [heq] at ht'
      rcases mem_append.1 hi with hi | hi
      · exact hs.exit_closed i hi d hd hexit t' ht'
      · exact absurd ((transition_demand htr hi hd).1.trans hid) heq
  · intro i hi j hj d d' hd hd' hexit hexit' hsame
    rw [intentsOf_append, intentsOf_outboxEntries] at hi hj
    rcases mem_append.1 hi with hi | hi
    · rcases mem_append.1 hj with hj | hj
      · exact hs.exit_unique i hi j hj d d' hd hd' hexit hexit' hsame
      · have hjid := (transition_demand htr hj hd').1.trans hid
        exact (hold i hi d hd hexit (hsame.trans hjid) j hj hexit').elim
    · have hiid := (transition_demand htr hi hd).1.trans hid
      rcases mem_append.1 hj with hj | hj
      · exact (hold j hj d' hd' hexit' (hsame.symm.trans hiid) i hi hexit).elim
      · exact (transition_exit htr hj hexit').2.2 i hi hexit

/-! ## The history of the worker -/

/-- What the history says about the keys and the totals of each transfer. -/
structure LedgerInv (s : Saga) : Prop where
  outbox : OutboxInv s.store
  history : ∀ x ∈ s.worker.history, x.intent ∈ intentsOf s.store.outbox
  keys : ∀ id, s.worker.treasury.mgr.held ⟨id, .reserve⟩ = true → s.worker.Reserved id
  covered : ∀ id, s.worker.Reserved id → ∃ t, s.store.transfers id = some t ∧
    ∀ a, toMicro t.sourceAmount = some a → a ≤ s.worker.totalReserved id
  nonneg : ∀ id, 0 ≤ s.worker.totalReserved id
  unfreed : ∀ id, (∀ x ∈ s.worker.history, ∀ d, demandOf x.intent = some d → exits x.intent = true →
    d.transferID = id → x.result ≠ .nil) → s.worker.totalFreed id = 0
  bound : ∀ id, s.worker.totalFreed id ≤ s.worker.totalReserved id

/-- A release or consume comes only after the Reserve of its transfer, and its key is held if it has
returned nil. -/
def InOrder (s : Saga) (i : Intent) : Prop :=
  exits i = true → ∀ d, demandOf i = some d →
    s.worker.Reserved d.transferID ∧
    ((∃ x ∈ s.worker.history, x.intent = i ∧ x.result = .nil) → s.worker.treasury.mgr.held d.key = true)

def Careful (s : Saga) : DriveStep → Prop
  | .create _ _ _ => True
  | .call id inv => NoSecondRelease s.store id inv
  | .execute _ i => InOrder s i

theorem LedgerInv.of_store {s : Saga} {store : Store} (hs : LedgerInv s) (hout : OutboxInv store)
    (hgrows : Grows s.store store) : LedgerInv { s with store := store } := by
  refine ⟨hout, fun x hx => hgrows.intents (hs.history x hx), hs.keys, fun id hres => ?_, hs.nonneg, hs.unfreed, hs.bound⟩
  obtain ⟨t, ht, hcov⟩ := hs.covered id hres
  obtain ⟨t', ht', hamt, -⟩ := hgrows.rows id t ht
  exact ⟨t', ht', hamt ▸ hcov⟩

section

variable {s : Saga} {i : Intent} {d : Demand} {w' : World} {r : Result} {n : ℤ}

/-- The state after an execution that added the entry `⟨i, r, n⟩`. -/
def recorded (s : Saga) (w' : World) (i : Intent) (r : Result) (n : ℤ) (bus : List Event) : Saga :=
  { s with worker := ⟨w', s.worker.history ++ [⟨i, r, n⟩]⟩, bus := bus }

theorem recorded_reserved (hd : demandOf i = some d) (bus : List Event) (id : UUID) :
    (recorded s w' i r n bus).worker.Reserved id ↔
      s.worker.Reserved id ∨ r = .nil ∧ d.op = .reserve ∧ d.transferID = id :=
  reserved_snoc hd

theorem recorded_totalReserved (hd : demandOf i = some d) (bus : List Event) (id : UUID) :
    (recorded s w' i r n bus).worker.totalReserved id =
      s.worker.totalReserved id + if d.op = .reserve ∧ d.transferID = id then n else 0 := by
  rw [recorded, totalReserved_append, reserves_eq hd, Worker.totalReserved]

theorem recorded_totalFreed (hd : demandOf i = some d) (bus : List Event) (id : UUID) :
    (recorded s w' i r n bus).worker.totalFreed id =
      s.worker.totalFreed id + if d.op ≠ .reserve ∧ d.transferID = id then -n else 0 := by
  rw [recorded, totalFreed_append, frees_eq hd, Worker.totalFreed]

theorem idle_ledgerInv (hs : LedgerInv s) (hi : i ∈ intentsOf s.store.outbox) (hd : demandOf i = some d)
    (hdup : r = .nil → s.worker.treasury.mgr.held d.key = true)
    (hkeys : ∀ key, w'.mgr.held key = true → s.worker.treasury.mgr.held key = true) (bus : List Event) :
    LedgerInv (recorded s w' i r 0 bus) := by
  -- a reserve that returned nil without effect found its key claimed by an earlier one
  have hres : ∀ id, (recorded s w' i r 0 bus).worker.Reserved id ↔ s.worker.Reserved id := by
    intro id
    rw [recorded_reserved hd]
    refine or_iff_left_of_imp ?_
    rintro ⟨hnil, hop, rfl⟩
    have hheld := hdup hnil
    rw [Demand.key, hop, (demandOf_reserve hd hop).1] at hheld
    exact hs.keys _ hheld
  have hadd : ∀ id, (recorded s w' i r 0 bus).worker.totalReserved id = s.worker.totalReserved id := by
    intro id; rw [recorded_totalReserved hd]; simp
  have hfree : ∀ id, (recorded s w' i r 0 bus).worker.totalFreed id = s.worker.totalFreed id := by
    intro id; rw [recorded_totalFreed hd]; simp
  refine ⟨hs.outbox, forall_mem_snoc hs.history hi, ?_, ?_, ?_, ?_, ?_⟩
  · intro id hheld
    exact (hres id).2 (hs.keys id (hkeys _ hheld))
  · intro id hid
    rw [hadd]; exact hs.covered id ((hres id).1 hid)
  · intro id
    rw [hadd]; exact hs.nonneg id
  · intro id hno
    rw [hfree]; exact hs.unfreed id fun x hx => hno x (mem_append_left _ hx)
  · intro id
    rw [hadd, hfree]; exact hs.bound id

theorem reserve_ledgerInv (hs : LedgerInv s) (hi : i ∈ intentsOf s.store.outbox) (hd : demandOf i = some d)
    (hop : d.op = .reserve) {a : ℤ} (ha : toMicro d.amount = some a) (hnn : 0 ≤ a)
    (hkeys : ∀ key, w'.mgr.held key = true → key = d.key ∨ s.worker.treasury.mgr.held key = true)
    (bus : List Event) : LedgerInv (recorded s w' i .nil a bus) := by
  have hadd : ∀ id, s.worker.totalReserved id ≤ (recorded s w' i .nil a bus).worker.totalReserved id := by
    intro id
    rw [recorded_totalReserved hd]
    split <;> omega
  have hfree : ∀ id, (recorded s w' i .nil a bus).worker.totalFreed id = s.worker.totalFreed id := by
    intro id; rw [recorded_totalFreed hd]; simp [hop]
  refine ⟨hs.outbox, forall_mem_snoc hs.history hi, ?_, ?_, ?_, ?_, ?_⟩
  · intro id hheld
    rw [recorded_reserved hd]
    rcases hkeys _ hheld with heq | hold
    · have hid : id = d.transferID := by
        rw [← (demandOf_reserve hd hop).1]
        exact congrArg IdempotencyKey.reference heq
      exact .inr ⟨rfl, hop, hid.symm⟩
    · exact .inl (hs.keys id hold)
  · intro id hid
    by_cases heq : d.transferID = id
    · obtain ⟨t, ht, -, hamt⟩ := hs.outbox.rows i hi d hd
      refine ⟨t, heq ▸ ht, fun a' ha' => ?_⟩
      rw [← hamt, ha] at ha'
      cases ha'
      have := hs.nonneg id
      rw [recorded_totalReserved hd, if_pos ⟨hop, heq⟩]
      omega
    · rw [recorded_reserved hd] at hid
      obtain ⟨t, ht, hcov⟩ := hs.covered id (hid.resolve_right fun h => heq h.2.2)
      exact ⟨t, ht, fun a' ha' => (hcov a' ha').trans (hadd id)⟩
  · intro id
    exact (hs.nonneg id).trans (hadd id)
  · intro id hno
    rw [hfree]; exact hs.unfreed id fun x hx => hno x (mem_append_left _ hx)
  · intro id
    rw [hfree]; exact (hs.bound id).trans (hadd id)

theorem exit_ledgerInv (hs : LedgerInv s) (hi : i ∈ intentsOf s.store.outbox) (hd : demandOf i = some d)
    (hop : d.op ≠ .reserve) {a : ℤ} (ha : toMicro d.amount = some a)
    (hfree : s.worker.treasury.mgr.held d.key = false) (hord : InOrder s i)
    (hkeys : ∀ key, w'.mgr.held key = true → key = d.key ∨ s.worker.treasury.mgr.held key = true)
    (bus : List Event) : LedgerInv (recorded s w' i .nil (-a) bus) := by
  have hexit : exits i = true := (exits_iff hd).2 hop
  obtain ⟨hresd, hheld⟩ := hord hexit d hd
  have hres : ∀ id, (recorded s w' i .nil (-a) bus).worker.Reserved id ↔ s.worker.Reserved id := by
    intro id; rw [recorded_reserved hd]; simp [hop]
  have hadd : ∀ id, (recorded s w' i .nil (-a) bus).worker.totalReserved id = s.worker.totalReserved id := by
    intro id; rw [recorded_totalReserved hd]; simp [hop]
  -- no release or consume of this transfer has returned nil before: it would be this intent
  have hnone : s.worker.totalFreed d.transferID = 0 := by
    refine hs.unfreed _ fun x hx d' hd' hexit' hsame hnil => ?_
    have heq : x.intent = i :=
      hs.outbox.exit_unique _ (hs.history x hx) i hi d' d hd' hd hexit' hexit hsame
    rw [hheld ⟨x, hx, heq, hnil⟩] at hfree
    cases hfree
  refine ⟨hs.outbox, forall_mem_snoc hs.history hi, ?_, ?_, ?_, ?_, ?_⟩
  · intro id hk
    rw [hres]
    -- the new key is no reserve key
    rcases hkeys _ hk with heq | hold
    · exact absurd (congrArg IdempotencyKey.op heq).symm hop
    · exact hs.keys id hold
  · intro id hid
    rw [hadd]; exact hs.covered id ((hres id).1 hid)
  · intro id
    rw [hadd]; exact hs.nonneg id
  · intro id hno
    have hne : d.transferID ≠ id := by
      intro heq
      exact hno _ (mem_append_right _ mem_cons_self) d hd hexit heq rfl
    rw [recorded_totalFreed hd, if_neg (fun h => hne h.2), add_zero]
    exact hs.unfreed id fun x hx => hno x (mem_append_left _ hx)
  · intro id
    rw [hadd, recorded_totalFreed hd]
    by_cases heq : d.transferID = id
    · subst heq
      obtain ⟨t, ht, hcov⟩ := hs.covered _ hresd
      obtain ⟨t', ht', -, hamt⟩ := hs.outbox.rows i hi d hd
      rw [ht] at ht'
      cases ht'
      -- what it frees is the amount of the row, which its reserve has added
      have hle := hcov a (hamt ▸ ha)
      rw [if_pos ⟨hop, rfl⟩, hnone]
      omega
    · rw [if_neg fun h => heq h.2, add_zero]
      exact hs.bound id

end

theorem drive_ledgerInv (text : Err → String) (s : Saga) (st : DriveStep) (hs : LedgerInv s)
    (hst : Careful s st) : LedgerInv (s.drive text st) := by
  cases st with
  | create e tenantID req =>
    exact hs.of_store (create_outboxInv hs.outbox e tenantID req) (create_grows s.store e tenantID req)
  | call id inv => exact hs.of_store (call_outboxInv hs.outbox id inv hst) (call_grows s.store id inv)
  | execute e i =>
    simp only [Saga.drive, Saga.step]
    split
    case isFalse => exact hs
    rename_i hi
    rcases execute_entry text s.worker e i with ⟨-, hsame⟩ | ⟨d, w', r, n, hd, hent, hnew⟩
    · rw [hsame]
      exact ⟨hs.1, hs.2, hs.3, hs.4, hs.5, hs.6, hs.7⟩
    rw [hnew]
    cases hent with
    | idle hdup hkeys => exact idle_ledgerInv hs hi hd hdup hkeys _
    | took hfree ha hnn hkeys =>
      rcases demandOf_op hd with hop | hop | hop
      · rw [hop, show sign .reserve = 1 from rfl, one_mul]
        exact reserve_ledgerInv hs hi hd hop ha hnn hkeys _
      all_goals
        rw [show sign d.op = -1 by rw [hop]; rfl, neg_one_mul]
        exact exit_ledgerInv hs hi hd (by rw [hop]; decide) ha hfree hst hkeys _

theorem start_ledgerInv {w : World} (hw : ∀ key, w.mgr.held key = false) : LedgerInv (Saga.start w) where
  outbox := ⟨fun _ _ h => (by cases h), fun _ h => (by cases h), fun _ h => (by cases h), fun _ h => (by cases h)⟩
  history := by intro x h; cases h
  keys := by intro id h; simp [Saga.start, hw] at h
  covered := by rintro id ⟨x, hx, -⟩; cases hx
  nonneg := by intro id; simp [Saga.start, Worker.totalReserved]
  unfreed := by intro id _; simp [Saga.start, Worker.totalFreed]
  bound := by intro id; simp [Saga.start, Worker.totalReserved, Worker.totalFreed]

/-- **A transfer frees at most what it reserved.** In every run of careful steps, what its release
and consume intents took off the reserved counter is at most what its reserve intent added. -/
theorem freed_le_reserved (text : Err → String) (w : World) (hw : ∀ key, w.mgr.held key = false)
    (steps : List DriveStep) (h : Along (Saga.drive text) Careful (Saga.start w) steps) (id : UUID) :
    let s := run (Saga.drive text) (Saga.start w) steps
    s.worker.totalFreed id ≤ s.worker.totalReserved id := by
  intro s
  have hs : LedgerInv s := run_preserves (drive_ledgerInv text) (start_ledgerInv hw) h
  exact hs.bound id

def tenantCall (id : UUID) (c : EngineCall) : DriveStep := .call id (ofTenant c)

def deliverIntent (i : Intent) : DriveStep := .execute ⟨0, .ok, true, .ok⟩ i

def sampleReserve (id : UUID) : Intent := .treasuryReserve ⟨id, 1, "GBP", 1000, "bank:gbp"⟩

def sampleRelease (id : UUID) (reason : String) : Intent := .treasuryRelease ⟨id, 1, "GBP", 1000, "bank:gbp", reason⟩

def failedSteps : List DriveStep :=
  [.create (sampleEnv 7) 1 sampleRequest,
    tenantCall 7 .fundTransfer,
    deliverIntent (sampleReserve 7),
    tenantCall 7 .initiateOnRamp,
    tenantCall 7 (.failTransfer "timeout" "ONRAMP"),
    deliverIntent (sampleRelease 7 "transfer_failed"),
    deliverIntent (sampleRelease 7 "transfer_failed")]

theorem freed_le_reserved_failed :
    let s := run (Saga.drive fun _ => "") (Saga.start poundTreasury) failedSteps
    s.worker.totalFreed 7 = 1000000000 ∧ s.worker.totalFreed 7 ≤ s.worker.totalReserved 7 := by
  have hreserved : ∀ s : Saga, (s.worker.history.map fun x => (x.intent, x.result)).head? =
      some (sampleReserve 7, .nil) → s.worker.Reserved 7 := by
    intro s hs
    rw [List.head?_map, Option.map_eq_some_iff] at hs
    obtain ⟨x, hx, heq⟩ := hs
    exact ⟨x, List.mem_of_mem_head? hx, congrArg Prod.snd heq, _, congrArg Prod.fst heq, rfl⟩
  have hrun : Along (Saga.drive fun _ => "") Careful (Saga.start poundTreasury) failedSteps := by
    refine ⟨trivial, trivial, nofun, trivial, trivial, ?_, ?_, trivial⟩
    · rintro - d ⟨⟩
      refine ⟨hreserved _ (by decide +kernel), fun hdup => ?_⟩
      have hno : ∀ x ∈ (run (Saga.drive fun _ => "") (Saga.start poundTreasury) (failedSteps.take 5)).worker.history,
          x.intent ≠ sampleRelease 7 "transfer_failed" := by decide +kernel
      obtain ⟨x, hx, heq, -⟩ := hdup
      exact absurd heq (hno x hx)
    · rintro - d ⟨⟩
      exact ⟨hreserved _ (by decide +kernel), fun _ => by decide +kernel⟩
  exact ⟨by decide +kernel, freed_le_reserved (fun _ => "") poundTreasury (fun _ => rfl) failedSteps hrun 7⟩

def doubleReleaseSteps : List DriveStep :=
  [.create (sampleEnv 7) 1 sampleRequest,
    .create (sampleEnv 8) 1 sampleRequest,
    tenantCall 7 .fundTransfer,
    tenantCall 8 .fundTransfer,
    deliverIntent (sampleReserve 7),
    deliverIntent (sampleReserve 8),
    tenantCall 7 .initiateOnRamp,
    tenantCall 7 (.failTransfer "timeout" "ONRAMP"),
    tenantCall 7 .initiateRefund,
    deliverIntent (sampleRelease 7 "transfer_failed"),
    deliverIntent (sampleRelease 7 "refund")]

/-- **A refund after a failure releases twice**, and nothing is left of the reservation of another
transfer. -/
theorem double_release :
    let s := run (Saga.drive fun _ => "") (Saga.start poundTreasury) doubleReleaseSteps
    s.worker.totalReserved 7 = 1000000000 ∧ s.worker.totalFreed 7 = 2000000000 ∧
    s.worker.totalReserved 8 = 1000000000 ∧ s.worker.totalFreed 8 = 0 ∧
    reservedAt s.worker.treasury ⟨1, "GBP", "bank:gbp"⟩ = 0 := by
  decide +kernel

end Settla.Node
