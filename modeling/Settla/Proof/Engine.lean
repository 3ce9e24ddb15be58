import Settla.Core.Engine

/-!
# What the engine can do

`Transition` lists every status change the nine methods can make, with its intents; `plan_transition`
is for a call on a row that does not change under it, `prog_moves` for calls that interleave.
-/

namespace Settla.Core

open Lib Lib.Optimistic List

/-- The status changes of the engine with the intents and the event each writes. -/
inductive Transition (t : Transfer) : TransferStatus → List Intent → Option EventType → Prop
  | fund : t.status = .created → Transition t .funded [reserveIntent t] (some .transferFunded)
  | onRamp {p : ProviderOnRampPayload} : t.status = .funded → p.transferID = t.id →
      Transition t .onRamping [.providerOnRamp p] none
  | onRampDone {slug : String} {send : BlockchainSendPayload} : t.status = .onRamping →
      0 < t.sourceAmount - t.fees.onRampFee →
      Transition t .settling
        [.ledgerPost (ledgerPayload t "onramp" ("On-ramp transfer " ++ t.id.string) "transfer" (onRampLines t slug)),
          .blockchainSend send] (some .onRampCompleted)
  | onRampFailed : t.status = .onRamping →
      Transition t .refunding [releaseIntent t "onramp_failure"] (some .providerOnRampFailed)
  | settled {p : ProviderOffRampPayload} : t.status = .settling →
      Transition t .offRamping [.providerOffRamp p] (some .settlementCompleted)
  | settlementFailed {slug description : String} : t.status = .settling →
      Transition t .failed [releaseIntent t "settlement_failure",
        .ledgerReverse (ledgerPayload t "reverse-settle" description "reversal" (reversalLines t slug))]
        (some .blockchainFailed)
  | complete {slug : String} : t.status = .offRamping → 0 < t.sourceAmount - t.fees.totalFeeUSD →
      validateLedgerLines (completionLines t slug) = .ok () →
      Transition t .completed [consumeIntent t,
        .ledgerPost (ledgerPayload t "complete" ("Complete transfer " ++ t.id.string) "transfer"
          (completionLines t slug)), webhookIntent t .transferCompleted .none] (some .transferCompleted)
  | offRampFailed {slug description : String} : t.status = .offRamping →
      Transition t .failed [releaseIntent t "offramp_failure",
        .ledgerReverse (ledgerPayload t "reverse-offramp" description "reversal" (reversalLines t slug)),
        webhookIntent t .transferFailed .none] (some .providerOffRampFailed)
  | fail {data : WebhookData} : t.canTransitionTo .failed = true →
      Transition t .failed [releaseIntent t "transfer_failed", webhookIntent t .transferFailed data]
        (some .transferFailed)
  | refundEmpty : t.status = .funded ∨ t.status = .failed ∧ ¬ 0 < t.stableAmount →
      Transition t .refunding
        [.ledgerReverse (ledgerPayload t "refund" ("Refund for transfer " ++ t.id.string) "reversal" []),
          releaseIntent t "refund"] (some .refundInitiated)
  | refundPosted {slug : String} : t.status = .failed → 0 < t.stableAmount →
      Transition t .refunding
        [.ledgerReverse (ledgerPayload t "refund" ("Refund for transfer " ++ t.id.string) "reversal"
            (refundLines t slug)), releaseIntent t "refund"] (some .refundInitiated)
  | refunded {data : WebhookData} : t.status = .refunding →
      Transition t .refunded [webhookIntent t .refundCompleted data] (some .refundCompleted)

/-- A plan moves only along a `Transition`, and only along one of the `moves`. -/
def Plan.Sound (moves : List (TransferStatus × TransferStatus)) (t : Transfer) (p : Plan) : Prop :=
  ∀ st es, p = .transition st es →
    (t.status, st) ∈ moves ∧ ∃ intents ev, Transition t st intents ev ∧ es = outboxEntries t intents ev

variable {intents : List Intent} {ev : Option EventType} {p : Plan}

section

variable {moves : List (TransferStatus × TransferStatus)} (t : Transfer)

theorem sound_refuse (e : EngineErr) : (Plan.refuse e).Sound moves t := by
  intro st es h; cases h

theorem sound_skip : Plan.skip.Sound moves t := by
  intro st es h; cases h

theorem sound_lateResult (expected : TransferStatus) : (lateResult t expected).Sound moves t := by
  unfold lateResult
  split
  · exact sound_skip t
  · exact sound_refuse t _

theorem sound_transition {t : Transfer} {st : TransferStatus} (h : Transition t st intents ev)
    (hst : (t.status, st) ∈ moves) : (Plan.transition st (outboxEntries t intents ev)).Sound moves t := by
  intro st' es h'; cases h'; exact ⟨hst, intents, ev, h, rfl⟩

theorem Plan.Sound.mono {t : Transfer} {moves' : List (TransferStatus × TransferStatus)} (h : p.Sound moves t)
    (hsub : moves ⊆ moves') : p.Sound moves' t :=
  fun st es hp => ⟨hsub (h st es hp).1, (h st es hp).2⟩

end

variable (l : Lookups) (t : Transfer)

theorem fundTransfer_sound : (fundTransfer t).Sound [(.created, .funded)] t := by
  unfold fundTransfer
  split
  · exact sound_refuse t _
  · rename_i h
    exact sound_transition (.fund (not_not.1 h)) (by simp [not_not.1 h])

theorem initiateOnRamp_sound : (initiateOnRamp l t).Sound [(.funded, .onRamping)] t := by
  unfold initiateOnRamp
  split
  · exact sound_refuse t _
  · rename_i h
    exact sound_transition (.onRamp (not_not.1 h) rfl) (by simp [not_not.1 h])

variable (r : IntentResult)

theorem handleOnRampResult_sound :
    (handleOnRampResult l r t).Sound [(.onRamping, .settling), (.onRamping, .refunding)] t := by
  unfold handleOnRampResult
  split
  · exact sound_lateResult t _
  rename_i h
  split
  · split
    · exact sound_refuse t _
    · dsimp only
      split
      · exact sound_refuse t _
      · rename_i hnet
        exact sound_transition (.onRampDone (not_not.1 h) (not_not.1 hnet)) (by simp [not_not.1 h])
  · exact sound_transition (.onRampFailed (not_not.1 h)) (by simp [not_not.1 h])

theorem handleSettlementResult_sound :
    (handleSettlementResult l r t).Sound [(.settling, .offRamping), (.settling, .failed)] t := by
  unfold handleSettlementResult
  split
  · exact sound_lateResult t _
  rename_i h
  split
  · exact sound_transition (.settled (not_not.1 h)) (by simp [not_not.1 h])
  · split
    · exact sound_refuse t _
    · exact sound_transition (.settlementFailed (not_not.1 h)) (by simp [not_not.1 h])

theorem completeTransfer_sound : (completeTransfer l t).Sound [(.offRamping, .completed)] t := by
  unfold completeTransfer
  split
  · exact sound_refuse t _
  rename_i h
  split
  · exact sound_refuse t _
  dsimp only
  split
  · exact sound_refuse t _
  rename_i hnet
  split
  · exact sound_refuse t _
  · rename_i hval
    exact sound_transition (.complete (not_not.1 h) (not_not.1 hnet) hval) (by simp [not_not.1 h])

theorem offRampFailure_sound : (offRampFailure l r t).Sound [(.offRamping, .failed)] t := by
  unfold offRampFailure
  split
  · exact sound_refuse t _
  rename_i h
  split
  · exact sound_refuse t _
  · exact sound_transition (.offRampFailed (not_not.1 h)) (by simp [not_not.1 h])

def failMoves : List (TransferStatus × TransferStatus) :=
  [(.created, .failed), (.onRamping, .failed), (.settling, .failed), (.offRamping, .failed)]

theorem failTransfer_sound (reason code : String) : (failTransfer reason code t).Sound failMoves t := by
  unfold failTransfer
  split
  · exact sound_refuse t _
  · rename_i h
    have hmem : TransferStatus.failed ∈ validTransitions t.status := by
      simpa [Transfer.canTransitionTo] using h
    -- `FailTransfer` asks the state machine, so the possible statuses come from its table
    refine sound_transition (.fail (not_not.1 h)) ?_
    generalize t.status = st at hmem ⊢
    revert hmem
    cases st <;> decide

theorem initiateRefund_sound :
    (initiateRefund l t).Sound [(.funded, .refunding), (.failed, .refunding)] t := by
  unfold initiateRefund
  split
  · exact sound_refuse t _
  rename_i h
  split
  · exact sound_refuse t _
  split
  · rename_i hf
    split
    · exact sound_refuse t _
    · exact sound_transition (.refundPosted hf.1 hf.2) (by simp [hf.1])
  · rename_i hf
    -- an empty reversal: from FUNDED, or from FAILED without a stablecoin amount
    by_cases hfunded : t.status = .funded
    · exact sound_transition (.refundEmpty (.inl hfunded)) (by simp [hfunded])
    · have hfailed : t.status = .failed := by
        by_contra hne
        exact h ⟨hfunded, hne⟩
      exact sound_transition (.refundEmpty (.inr ⟨hfailed, fun hpos => hf ⟨hfailed, hpos⟩⟩)) (by simp [hfailed])

theorem handleRefundResult_sound : (handleRefundResult r t).Sound [(.refunding, .refunded)] t := by
  unfold handleRefundResult
  split
  · exact sound_refuse t _
  rename_i h
  split
  · exact sound_transition (.refunded (not_not.1 h)) (by simp [not_not.1 h])
  · exact sound_skip t

theorem offRampPrecheck_sound (moves : List (TransferStatus × TransferStatus)) (h : offRampPrecheck t = some p) :
    p.Sound moves t := by
  unfold offRampPrecheck at h
  split at h
  · cases h; exact sound_lateResult t _
  · cases h

def EngineCall.moves : EngineCall → List (TransferStatus × TransferStatus)
  | .fundTransfer => [(.created, .funded)]
  | .initiateOnRamp => [(.funded, .onRamping)]
  | .handleOnRampResult _ => [(.onRamping, .settling), (.onRamping, .refunding)]
  | .handleSettlementResult _ => [(.settling, .offRamping), (.settling, .failed)]
  | .handleOffRampResult _ => [(.offRamping, .completed), (.offRamping, .failed)]
  | .completeTransfer => [(.offRamping, .completed)]
  | .failTransfer _ _ => failMoves
  | .initiateRefund => [(.funded, .refunding), (.failed, .refunding)]
  | .handleRefundResult _ => [(.refunding, .refunded)]

/-- **A call moves only along a `Transition`, and only along its own moves.** -/
theorem plan_sound (c : EngineCall) : (c.plan l t).Sound c.moves t := by
  cases c with
  | fundTransfer => exact fundTransfer_sound t
  | initiateOnRamp => exact initiateOnRamp_sound l t
  | handleOnRampResult r => exact handleOnRampResult_sound l t r
  | handleSettlementResult r => exact handleSettlementResult_sound l t r
  | handleOffRampResult r =>
    simp only [EngineCall.plan]
    split
    · rename_i p hp
      -- the first load refuses or skips; the second one decides
      exact offRampPrecheck_sound t _ hp
    · split
      · exact (completeTransfer_sound l t).mono (by simp [EngineCall.moves])
      · exact (offRampFailure_sound l t r).mono (by simp [EngineCall.moves])
  | completeTransfer => exact completeTransfer_sound l t
  | failTransfer reason code => exact failTransfer_sound t reason code
  | initiateRefund => exact initiateRefund_sound l t
  | handleRefundResult r => exact handleRefundResult_sound t r

/-! ## Calls on the store -/

theorem call_of_plan {s : Store} {id : UUID} {t : Transfer} {inv : Invocation} (ht : s.transfers id = some t)
    (htenant : t.tenantID = inv.tenantID) {st : TransferStatus} {es : List OutboxEntry}
    (hplan : inv.call.plan inv.lookups t = .transition st es) :
    (s.call id inv).1 = ⟨Function.update s.transfers id (some (t.advance st)), s.outbox ++ es⟩ := by
  simp [Store.call, ht, htenant, hplan, Store.transitionWithOutbox]

theorem call_cases (s : Store) (id : UUID) (inv : Invocation) :
    (s.call id inv).1 = s ∨
    ∃ t st intents ev, s.transfers id = some t ∧ t.tenantID = inv.tenantID ∧
      inv.call.plan inv.lookups t = .transition st (outboxEntries t intents ev) ∧
      (t.status, st) ∈ inv.call.moves ∧ Transition t st intents ev ∧
      (s.call id inv).1 = ⟨Function.update s.transfers id (some (t.advance st)),
        s.outbox ++ outboxEntries t intents ev⟩ := by
  unfold Store.call
  split
  · exact .inl rfl
  rename_i t ht
  split
  · exact .inl rfl
  rename_i htenant
  split
  · exact .inl rfl
  · exact .inl rfl
  · rename_i st es hplan
    obtain ⟨hst, intents, ev, htr, rfl⟩ := plan_sound inv.lookups t inv.call st es hplan
    refine .inr ⟨t, st, intents, ev, ht, not_not.1 htenant, hplan, hst, htr, ?_⟩
    -- the version cannot have moved since the load
    simp [Store.transitionWithOutbox, ht]

/-! ## Interleaved calls -/

/-- The changes a call may commit to a row. -/
def Allowed (before after : Transfer) (out : List OutboxEntry) : Prop :=
  ∃ st intents ev, Transition before st intents ev ∧ after = before.advance st ∧
    out = outboxEntries before intents ev

variable {out : List OutboxEntry}

theorem Allowed.version {a b : Transfer} (h : Allowed a b out) : b.version = a.version + 1 := by
  obtain ⟨st, intents, ev, -, rfl, -⟩ := h
  rfl

def AllowedBy (moves : List (TransferStatus × TransferStatus)) (before after : Transfer)
    (out : List OutboxEntry) : Prop :=
  (before.status, after.status) ∈ moves ∧ Allowed before after out

theorem carryOut_safe {moves : List (TransferStatus × TransferStatus)} {t : Transfer} (h : p.Sound moves t) :
    Safe Transfer.version (AllowedBy moves) (some t) (carryOut t p) := by
  cases p with
  | refuse | skip => trivial
  | transition st es =>
    obtain ⟨hst, intents, ev, htr, rfl⟩ := h st es rfl
    exact ⟨⟨t, rfl, rfl, hst, st, intents, ev, htr, rfl, rfl⟩, fun _ => trivial⟩

theorem loadTransfer_safe {R : Transfer → Transfer → List OutboxEntry → Prop} {tenantID : UUID}
    {k : Transfer → Prog Transfer OutboxEntry EngineResult}
    (h : ∀ t, Safe Transfer.version R (some t) (k t)) (known : Option Transfer) :
    Safe Transfer.version R known (loadTransfer tenantID k) := by
  intro t
  dsimp only
  split
  · trivial
  · exact h t

/-- **Every method is a safe client of the row**, along its own moves. -/
theorem prog_moves (inv : Invocation) : Safe Transfer.version (AllowedBy inv.call.moves) none inv.prog := by
  refine loadTransfer_safe (fun t => ?_) none
  split
  · rename_i r hcall
    rw [hcall]
    split
    · rename_i p hp
      exact carryOut_safe (offRampPrecheck_sound t _ hp)
    -- the second load replaces what the first one knew
    · refine loadTransfer_safe (fun t' => ?_) _
      split
      · exact carryOut_safe ((completeTransfer_sound _ t').mono (by simp [EngineCall.moves]))
      · exact carryOut_safe ((offRampFailure_sound _ t' _).mono (by simp [EngineCall.moves]))
  · exact carryOut_safe (plan_sound _ t _)

/-- A call starts, a running call makes its next store call, or a running call is lost. -/
inductive CallStep
  | invoke (inv : Invocation)
  | step (i : ℕ)
  | drop (i : ℕ)

def CallStep.action : CallStep → Action Transfer OutboxEntry EngineResult
  | .invoke inv => .start inv.prog
  | .step i => .step i
  | .drop i => .drop i

/-- The row, the committed changes and the running calls after a list of steps. -/
def interleave (s : System Transfer OutboxEntry EngineResult) (steps : List CallStep) :
    System Transfer OutboxEntry EngineResult :=
  run (System.act Transfer.version) s (steps.map CallStep.action)

theorem starts_safe (steps : List CallStep) :
    ∀ a ∈ steps.map CallStep.action, Starts (Safe Transfer.version Allowed none) a := by
  simp only [mem_map]
  rintro _ ⟨s, -, rfl⟩
  cases s with
  | invoke inv => exact (prog_moves inv).mono fun _ _ _ h => h.2
  | step | drop => trivial

theorem interleave_inv (t₀ : Transfer) (steps : List CallStep) :
    Inv Transfer.version Allowed t₀ (interleave (System.init t₀) steps) :=
  run_inv (s := System.init t₀) (fun _ _ _ h => h.version) ⟨rfl, by simp [System.init]⟩ _ (starts_safe steps)

/-- The edges the methods follow, with the kinds of intents each writes. -/
def edges : List (TransferStatus × TransferStatus × List IntentKind) :=
  [(.created, .funded, [.treasuryReserve]),
    (.funded, .onRamping, [.providerOnRamp]),
    (.onRamping, .settling, [.ledgerPost, .blockchainSend]),
    (.onRamping, .refunding, [.treasuryRelease]),
    (.settling, .offRamping, [.providerOffRamp]),
    (.settling, .failed, [.treasuryRelease, .ledgerReverse]),
    (.offRamping, .completed, [.treasuryConsume, .ledgerPost, .webhookDeliver]),
    (.offRamping, .failed, [.treasuryRelease, .ledgerReverse, .webhookDeliver]),
    (.created, .failed, [.treasuryRelease, .webhookDeliver]),
    (.onRamping, .failed, [.treasuryRelease, .webhookDeliver]),
    (.settling, .failed, [.treasuryRelease, .webhookDeliver]),
    (.offRamping, .failed, [.treasuryRelease, .webhookDeliver]),
    (.funded, .refunding, [.ledgerReverse, .treasuryRelease]),
    (.failed, .refunding, [.ledgerReverse, .treasuryRelease]),
    (.refunding, .refunded, [.webhookDeliver])]

theorem Transition.mem_edges {t : Transfer} {st : TransferStatus} (h : Transition t st intents ev) :
    (t.status, st, intents.map Intent.kind) ∈ edges := by
  cases h with
  | fail hcan =>
    have hmem : TransferStatus.failed ∈ validTransitions t.status := by
      simpa [Transfer.canTransitionTo] using hcan
    show (t.status, TransferStatus.failed, [IntentKind.treasuryRelease, .webhookDeliver]) ∈ edges
    generalize t.status = s at hmem ⊢
    revert hmem
    cases s <;> decide
  | refundEmpty hs =>
    show (t.status, TransferStatus.refunding, [IntentKind.ledgerReverse, .treasuryRelease]) ∈ edges
    rcases hs with hs | ⟨hs, -⟩ <;> rw [hs] <;> decide
  | fund hs | onRamp hs | onRampDone hs | onRampFailed hs | settled hs | settlementFailed hs | complete hs
  | offRampFailed hs | refundPosted hs | refunded hs =>
    rw [hs]
    simp [edges, Intent.kind, reserveIntent, releaseIntent, consumeIntent, webhookIntent]

theorem edges_valid : ∀ e ∈ edges, e.2.1 ∈ validTransitions e.1 := by decide

theorem Transition.edge {t : Transfer} {st : TransferStatus} (h : Transition t st intents ev) :
    st ∈ validTransitions t.status :=
  edges_valid _ h.mem_edges

theorem Allowed.edge {a b : Transfer} (h : Allowed a b out) : b.status ∈ validTransitions a.status := by
  obtain ⟨st, intents, ev, htr, rfl, -⟩ := h
  exact htr.edge

/-- **Calls that interleave follow the state machine.** Every committed change is an edge of
`validTransitions`, each version is used once, and a completed or refunded transfer stays as it is. -/
theorem interleaved_changes (t₀ : Transfer) (steps : List CallStep) :
    let s := interleave (System.init t₀) steps
    (∀ c ∈ s.log, c.after.status ∈ validTransitions c.before.status ∧ c.after.version = c.before.version + 1) ∧
    (s.log.map fun c => c.before.version) = List.range' t₀.version s.log.length ∧
    s.row.version = t₀.version + s.log.length ∧
    (s.row.status = .completed ∨ s.row.status = .refunded →
      ∀ more, (interleave s more).row = s.row) := by
  intro s
  have hinv : Inv Transfer.version Allowed t₀ s := interleave_inv t₀ steps
  refine ⟨?_, hinv.chain.versions fun _ _ _ h => h.version, hinv.chain.last_version fun _ _ _ h => h.version, ?_⟩
  · intro c hc
    have hR := hinv.chain.mem c hc
    exact ⟨hR.edge, hR.version⟩
  · intro hfinal more
    refine frozen (fun _ _ _ h => h.version) hinv ?_ _ (starts_safe more)
    -- the two final statuses have no successors
    intro b out hR
    have hedge := hR.edge
    rcases hfinal with hs | hs
    all_goals
      rw [hs] at hedge
      simp [validTransitions] at hedge

/-! ## Intents -/

/-- How many intents of a kind a transfer can have written when it reaches a status. -/
def budget : IntentKind → TransferStatus → ℕ
  | .treasuryReserve, .created => 0
  | .treasuryReserve, _ => 1
  | .providerOnRamp, .created => 0
  | .providerOnRamp, .funded => 0
  | .providerOnRamp, _ => 1
  | .blockchainSend, .created => 0
  | .blockchainSend, .funded => 0
  | .blockchainSend, .onRamping => 0
  | .blockchainSend, _ => 1
  | .providerOffRamp, .created => 0
  | .providerOffRamp, .funded => 0
  | .providerOffRamp, .onRamping => 0
  | .providerOffRamp, .settling => 0
  | .providerOffRamp, _ => 1
  | .treasuryConsume, .completed => 1
  | .treasuryConsume, _ => 0
  | .treasuryRelease, .failed => 1
  | .treasuryRelease, .refunding => 2
  | .treasuryRelease, .refunded => 2
  | .treasuryRelease, _ => 0
  | .ledgerPost, .created => 0
  | .ledgerPost, .funded => 0
  | .ledgerPost, .onRamping => 0
  | .ledgerPost, .completed => 2
  | .ledgerPost, _ => 1
  | .ledgerReverse, .failed => 1
  | .ledgerReverse, .refunding => 2
  | .ledgerReverse, .refunded => 2
  | .ledgerReverse, _ => 0
  | .webhookDeliver, .completed => 1
  | .webhookDeliver, .failed => 1
  | .webhookDeliver, .refunding => 1
  | .webhookDeliver, .refunded => 2
  | .webhookDeliver, _ => 0

def countKind (kind : IntentKind) (is : List Intent) : ℕ := (is.map Intent.kind).count kind

@[simp] theorem intentsOf_outboxEntries (t : Transfer) (intents : List Intent) (ev : Option EventType) :
    intentsOf (outboxEntries t intents ev) = intents := by
  have hev : List.filterMap OutboxEntry.intent
      (ev.toList.map fun x => { newOutboxEvent "transfer" t.id t.tenantID x t.id with correlationID := t.id })
        = [] := by
    cases ev <;> rfl
  simp only [intentsOf, outboxEntries, setCorrelationID, map_append, map_map, filterMap_append,
    Function.comp_def, hev, append_nil, filterMap_map]
  exact filterMap_some

theorem intentsOf_append (xs ys : List OutboxEntry) : intentsOf (xs ++ ys) = intentsOf xs ++ intentsOf ys :=
  filterMap_append

/-- **Every step stays within the budget.** -/
theorem budget_transition {t : Transfer} {st : TransferStatus} (h : Transition t st intents ev)
    (kind : IntentKind) : budget kind t.status + countKind kind intents ≤ budget kind st := by
  have hedges : ∀ e ∈ edges, ∀ kind, budget kind e.1 + e.2.2.count kind ≤ budget kind e.2.1 := by
    intro e he kind
    revert e
    cases kind <;> decide
  exact hedges _ h.mem_edges kind

theorem countKind_le_budget (t₀ : Transfer) (steps : List CallStep) (kind : IntentKind) :
    let s := interleave (System.init t₀) steps
    budget kind t₀.status + countKind kind (intentsOf (emitted s.log)) ≤ budget kind s.row.status := by
  -- the budget of the status is the potential, the number of intents the weight
  refine (interleave_inv t₀ steps).chain.weight (fun out => countKind kind (intentsOf out))
    (fun t => budget kind t.status) rfl ?_ ?_
  · intro xs ys
    simp [intentsOf_append, countKind]
  · rintro a b out ⟨st, intents, ev, htr, rfl, rfl⟩
    rw [intentsOf_outboxEntries]
    exact budget_transition htr kind

/-- **At most one of each side effect**: one reserve, on-ramp, send, off-ramp and consume intent,
and not both a consume and a release. -/
theorem at_most_one_intent (t₀ : Transfer) (steps : List CallStep) :
    let is := intentsOf (emitted (interleave (System.init t₀) steps).log)
    countKind .treasuryReserve is ≤ 1 ∧ countKind .providerOnRamp is ≤ 1 ∧ countKind .blockchainSend is ≤ 1 ∧
    countKind .providerOffRamp is ≤ 1 ∧ countKind .treasuryConsume is ≤ 1 ∧
    (countKind .treasuryConsume is = 0 ∨ countKind .treasuryRelease is = 0) := by
  intro is
  have hle : ∀ kind, countKind kind is ≤ budget kind (interleave (System.init t₀) steps).row.status :=
    fun kind => le_of_add_le_right (countKind_le_budget t₀ steps kind)
  have hone : ∀ st, budget .treasuryReserve st ≤ 1 ∧ budget .providerOnRamp st ≤ 1 ∧
      budget .blockchainSend st ≤ 1 ∧ budget .providerOffRamp st ≤ 1 ∧ budget .treasuryConsume st ≤ 1 ∧
      (budget .treasuryConsume st = 0 ∨ budget .treasuryRelease st = 0) := by
    intro st; cases st <;> decide
  obtain ⟨h₁, h₂, h₃, h₄, h₅, h₆⟩ := hone (interleave (System.init t₀) steps).row.status
  refine ⟨(hle _).trans h₁, (hle _).trans h₂, (hle _).trans h₃, (hle _).trans h₄, (hle _).trans h₅, ?_⟩
  -- the budgets of a consume and of a release are never both positive
  have hc := hle .treasuryConsume
  have hr := hle .treasuryRelease
  omega

end Settla.Core
