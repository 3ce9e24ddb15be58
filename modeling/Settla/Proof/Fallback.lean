import Settla.Proof.Provider
import Settla.Proof.Reversal

/-!
# Fallback routes

An alternative of the quote is never tried: the statement that would write it into the transfer is refused, and the
failure of the first provider is reported. What is sent and paid out later belongs to the route of the transfer.
-/

namespace Settla.Node

open Settla.Core Lib Lib.Threads List

variable {c : EngineCall} {es : List OutboxEntry} {l : Lookups} {p : ProviderOnRampPayload} {t : Transfer}
  {st : TransferStatus}

/-! ## The call that executes -/

section Call

variable (provider : String) (request : ProviderRequest)

/-- A step leaves the route as it is, and no call but this one can have returned. -/
def Stays (_ : Step) (_ : Answer) (s s' : Execution) (_ : Pos Step Delivery) : Prop :=
  s'.route = s.route ∧ ∀ c ∈ s'.executed, c ∈ s.executed ∨ c.provider = provider ∧ c.request = request

variable {provider request} {g : Step} {a : Answer} {s s' : Execution} {q : Pos Step Delivery} {w : Ramp}
  {fallback : ExecError → Handler}

theorem stays_of_same (hroute : s'.route = s.route) (hexecuted : s'.executed = s.executed) :
    Stays provider request g a s s' q :=
  ⟨hroute, fun _ hc => .inl (hexecuted ▸ hc)⟩

theorem stays_applied {f : Execution → Execution} (hf : (f s).route = s.route ∧ (f s).executed = s.executed) :
    Stays provider request g a s (if a.reply.applied then f s else s) q := by
  split
  · exact stays_of_same hf.1 hf.2
  · exact stays_of_same rfl rfl

theorem report_stays (r : IntentResult) : (report r).Follows (Stays provider request) := by
  refine fun a s => ⟨stays_applied (f := fun s => { s with accepted := s.accepted ++ [r] }) ⟨rfl, rfl⟩, ?_⟩
  dsimp only
  split <;> trivial

theorem recordThen_stays (tx : ProviderTx) {next : Handler} (hnext : next.Follows (Stays provider request)) :
    (recordThen tx next).Follows (Stays provider request) := by
  refine fun a s => ⟨stays_applied ?_, hnext⟩
  unfold updateProviderTransaction
  split
  · split <;> exact ⟨rfl, rfl⟩
  · exact ⟨rfl, rfl⟩

theorem reportFailure_stays (error : String) : (reportFailure error).Follows (Stays provider request) :=
  recordThen_stays _ (report_stays _)

theorem callThen_stays {k : Answer → Handler} (hk : ∀ a, (k a).Follows (Stays provider request)) :
    (callThen provider request k).Follows (Stays provider request) := by
  refine fun a s => ⟨?_, hk a⟩
  dsimp only
  split
  · refine ⟨rfl, forall_mem_append.2 ⟨fun c hc => .inl hc, ?_⟩⟩
    rintro c hc
    rw [mem_singleton.1 hc]
    exact .inr ⟨rfl, rfl⟩
  · exact stays_of_same rfl rfl

theorem finishCall_stays (hf : ∀ e, (fallback e).Follows (Stays provider request))
    (result : Except ExecError ProviderTx) : (finishCall w fallback result).Follows (Stays provider request) := by
  cases result with
  | ok tx =>
    refine recordThen_stays _ ?_
    split
    · trivial
    · exact report_stays _
  | error e =>
    simp only [finishCall]
    split
    · trivial
    · exact hf e

theorem retryCall_stays (op : String) {k : Except ExecError ProviderTx → Handler}
    (hk : ∀ result, (k result).Follows (Stays provider request)) (more : ℕ) :
    (retryCall op provider request k more).Follows (Stays provider request) := by
  induction more with
  | zero => exact callThen_stays fun _ => hk _
  | succ more ih =>
    refine callThen_stays fun a => ?_
    split
    · exact hk _
    · exact ih

theorem rampRound_stays (hf : ∀ e, (fallback e).Follows (Stays provider request)) :
    (rampRound w provider request fallback).Follows (Stays provider request) := by
  intro a s
  refine ⟨stays_applied ?_, ?_⟩
  · unfold claimProviderTransaction
    split <;> exact ⟨rfl, rfl⟩
  · dsimp only
    split
    · split_ifs
      · exact retryCall_stays _ (finishCall_stays hf) _
      · exact reportFailure_stays _
      · trivial
    · trivial

theorem executeRamp_stays (alternatives : List Fallback) :
    (executeRamp w provider request alternatives).Follows (Stays provider request) := by
  cases alternatives with
  | nil => exact rampRound_stays fun e => reportFailure_stays _
  | cons alt remaining =>
    rw [executeRamp_cons]
    exact rampRound_stays fun e _ _ => ⟨stays_of_same rfl rfl, reportFailure_stays _⟩

/-- **Only the first provider executes**, in all interleavings of the deliveries of an intent. -/
theorem deliveries_stay (alternatives : List Fallback) (route : TransferRoute) (as : List (Action Unit Answer)) :
    let s := (run (System.act fun _ => executeRamp w provider request alternatives)
      (System.init (Execution.init route)) as).state
    s.route = route ∧ ∀ c ∈ s.executed, c.provider = provider ∧ c.request = request := by
  have hmeets : Meets (fun _ => executeRamp w provider request alternatives) (fun _ _ _ => True)
      (System.init (Execution.init route)) as := along_of_forall (p := fun _ => True) (fun _ _ => trivial) _
  refine (run_keeps (fun _ => executeRamp_stays alternatives)
    (J := fun s _ => s.route = route ∧ ∀ c ∈ s.executed, c.provider = provider ∧ c.request = request) ?_
    (init_following (Execution.init route)) ⟨rfl, forall_mem_nil _⟩ hmeets).2
  intro s ps a s' ps' hinv _ heff
  cases heff with
  | start | drop | idle => exact hinv
  | step i a g s' q hi hstays =>
    exact ⟨hstays.1.trans hinv.1, fun c hc => (hstays.2 c hc).elim (hinv.2 c) id⟩

end Call

/-! ## What the engine ships -/

/-- A route with its stable amount. -/
structure Leg where
  (provider offRampProvider : String)
  chain : CryptoChain
  stableCoin : Currency
  stableAmount : Decimal

/-- The route of a transfer. -/
def legOf (t : Transfer) : Leg := ⟨t.onRampProviderID, t.offRampProviderID, t.chain, t.stableCoin, t.stableAmount⟩

/-- A send or an off-ramp belongs to the route. -/
def Leg.Carried (leg : Leg) : Intent → Prop
  | .blockchainSend send => send.chain = leg.chain ∧ send.token = leg.stableCoin ∧ send.amount = leg.stableAmount
  | .providerOffRamp p =>
    p.providerID = leg.offRampProvider ∧ p.fromCurrency = leg.stableCoin ∧ p.amount = leg.stableAmount
  | _ => True

/-- The store after engine calls on the transfer, from an empty outbox. -/
def shipped (t : Transfer) (calls : List Invocation) : Store := run (Store.after t.id) (Store.holding t []) calls

theorem handleOnRampResult_settles {r : IntentResult} (h : handleOnRampResult l r t = .transition .settling es) :
    ∃ post, intentsOf es = [.ledgerPost post,
      .blockchainSend ⟨t.id, t.tenantID, t.chain, t.stableCoin, t.stableAmount, "settlement:" ++ t.id.string⟩] := by
  unfold handleOnRampResult at h
  split_ifs at h
  · unfold lateResult at h
    split_ifs at h
  · split at h
    · cases h
    · dsimp only at h
      split_ifs at h
      cases h
      exact ⟨_, intentsOf_outboxEntries _ _ _⟩
  · cases h

theorem handleSettlementResult_settles {r : IntentResult}
    (h : handleSettlementResult l r t = .transition .offRamping es) :
    ∃ p : ProviderOffRampPayload, intentsOf es = [.providerOffRamp p] ∧
      p.providerID = t.offRampProviderID ∧ p.fromCurrency = t.stableCoin ∧ p.amount = t.stableAmount := by
  unfold handleSettlementResult at h
  split_ifs at h
  · unfold lateResult at h
    split_ifs at h
  · cases h
    exact ⟨_, intentsOf_outboxEntries _ _ _, rfl, rfl, rfl⟩
  · split at h <;> cases h

/-- **What a call ships belongs to the row** it was made from. -/
theorem plan_carried (h : c.plan l t = .transition st es) : ∀ i ∈ intentsOf es, (legOf t).Carried i := by
  obtain ⟨hmove, intents, ev, htransition, rfl⟩ := plan_sound l t c st es h
  cases htransition with
  | onRampDone hs =>
    rw [hs] at hmove
    obtain ⟨r, rfl⟩ : ∃ r, c = .handleOnRampResult r := by cases c <;> simp [EngineCall.moves, failMoves] at hmove ⊢
    obtain ⟨post, hintents⟩ := handleOnRampResult_settles h
    rw [hintents]
    simp [Leg.Carried, legOf]
  | settled hs =>
    rw [hs] at hmove
    obtain ⟨r, rfl⟩ : ∃ r, c = .handleSettlementResult r := by cases c <;> simp [EngineCall.moves, failMoves] at hmove ⊢
    obtain ⟨p, hintents, hprovider, hcurrency, hamount⟩ := handleSettlementResult_settles h
    rw [hintents]
    simp [Leg.Carried, legOf, hprovider, hcurrency, hamount]
  | fund | onRamp | onRampFailed | settlementFailed | complete | offRampFailed | fail | refundEmpty | refundPosted
  | refunded =>
    simp [Leg.Carried, reserveIntent, releaseIntent, consumeIntent, webhookIntent]

/-- The row of a transfer after calls, and what they have shipped. -/
structure Shipping (t : Transfer) (s : Store) : Prop where
  row : ∃ st v, s.transfers t.id = some (atStatus t st v)
  carried : ∀ i ∈ intentsOf s.outbox, (legOf t).Carried i

theorem shipping_step {s : Store} (inv : Invocation) (h : Shipping t s) : Shipping t (s.after t.id inv) := by
  rcases call_cases s t.id inv with hsame | ⟨row, st', intents, ev, hrow', -, hplan, -, -, hstore⟩
  · unfold Store.after
    rwa [hsame]
  obtain ⟨⟨st, v, hrow⟩, hcarried⟩ := h
  obtain rfl : row = atStatus t st v := Option.some.inj (hrow'.symm.trans hrow)
  unfold Store.after
  rw [hstore]
  refine ⟨⟨st', v + 1, by simp [atStatus, Transfer.advance]⟩, ?_⟩
  have hnew := plan_carried hplan
  rw [intentsOf_append]
  exact forall_mem_append.2 ⟨hcarried, hnew⟩

/-- **What is shipped belongs to the route of the row**, along every run of calls. -/
theorem shipped_carried (t : Transfer) (calls : List Invocation) :
    ∀ i ∈ intentsOf (shipped t calls).outbox, (legOf t).Carried i := by
  refine (run_invariant (P := Shipping t) (fun s inv => shipping_step inv) ⟨⟨t.status, t.version, ?_⟩, ?_⟩ calls).carried
  · simp [Store.holding, atStatus]
  · simp [Store.holding, intentsOf]

theorem initiateOnRamp_payload (hplan : initiateOnRamp l t = .transition st es)
    (hp : .providerOnRamp p ∈ intentsOf es) : p.providerID = t.onRampProviderID ∧ p.toCurrency = t.stableCoin := by
  unfold initiateOnRamp notInStatus at hplan
  split_ifs at hplan
  cases hplan
  rw [intentsOf_outboxEntries, mem_singleton] at hp
  cases hp
  exact ⟨rfl, rfl⟩

/-- **Later intents belong to the route that executed.** Whatever deliveries of the on-ramp intent are started,
answered or cut off by crashes, the call that returned was made for the route of the transfer, and so is everything
the engine ships afterwards. -/
theorem fallback_consistent {l : Lookups} {t : Transfer} {st : TransferStatus} {es : List OutboxEntry}
    {p : ProviderOnRampPayload} (hplan : initiateOnRamp l t = .transition st es)
    (hp : .providerOnRamp p ∈ intentsOf es) (providers : List String) (as : List (Action Unit Answer)) :
    let s := (run (System.act fun _ => handleOnRamp providers p) (System.init (Execution.init (routeOf t))) as).state
    (∀ c ∈ s.executed, c.provider = (legOf t).provider ∧
      c.request = ProviderOnRampPayload.request p (legOf t).stableCoin) ∧
    ∀ calls, ∀ i ∈ intentsOf (shipped (withRoute (t.advance st) s.route) calls).outbox, (legOf t).Carried i := by
  obtain ⟨hprovider, hcurrency⟩ := initiateOnRamp_payload hplan hp
  intro s
  obtain ⟨hroute, hexecuted⟩ : s.route = routeOf t ∧ ∀ c ∈ s.executed, c.provider = p.providerID ∧
      c.request = ProviderOnRampPayload.request p p.toCurrency := deliveries_stay _ (routeOf t) as
  rw [hprovider, hcurrency] at hexecuted
  refine ⟨hexecuted, fun calls => ?_⟩
  rw [hroute]
  exact shipped_carried (t.advance st) calls

def fundedRow : Transfer := { sampleRow 7 with status := .funded, version := 1 }

def secondRamp : Lookups where
  getQuote _ _ := some { sampleQuote with
    route := { sampleQuote.route with
      alternativeRoutes := [⟨"second", "payout", "solana", "USDT", ⟨12, "USD"⟩, 1900, 1300⟩] } }
  getTenant _ := some "acme"

def secondPayload : ProviderOnRampPayload :=
  ⟨7, 1, "ramp", 1000, "GBP", "USDT", UUID.string 7,
    [⟨"second", "payout", "solana", "USDT", ⟨12, "USD"⟩, 1900, 1300⟩], 1900⟩

/-- The first delivery is cut off, the second one executes at the third attempt. -/
def thirdAttempt : List (Action Unit Answer) :=
  [.start (), .drop 0, .start (), .step 0 {}, .step 0 {}, .step 0 {},
    .step 0 { called := .ok ⟨"ext-1", "pending", ""⟩ }]

theorem fallback_consistent_ramp :
    let s := (run (System.act fun _ => handleOnRamp ["ramp", "second"] secondPayload)
      (System.init (Execution.init (routeOf fundedRow))) thirdAttempt).state
    s.executed = [⟨"ramp", ProviderOnRampPayload.request secondPayload "USDT", ⟨"ext-1", "pending", ""⟩⟩] ∧
    ∀ calls, ∀ i ∈ intentsOf (shipped (withRoute (fundedRow.advance .onRamping) s.route) calls).outbox,
      Leg.Carried ⟨"ramp", "payout", "tron", "USDT", 1250⟩ i :=
  ⟨rfl, (fallback_consistent (l := secondRamp) (t := fundedRow) rfl
    (by rw [intentsOf_outboxEntries]; exact mem_singleton_self _) ["ramp", "second"] thirdAttempt).2⟩

end Settla.Node
