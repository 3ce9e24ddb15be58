import Settla.Node.BlockchainWorker
import Settla.Node.ProviderWorker

/-!
# Executing an intent

`Does` says what each step of the three handlers that call a provider or a chain can do;
`handler_follows` shows that they do nothing else.
-/

namespace Settla.Node

open Settla.Core Lib Lib.Threads

structure Workers where
  (onRampProviders offRampProviders : List String)
  chains : List CryptoChain

inductive ExecIntent
  | onRamp (p : ProviderOnRampPayload)
  | offRamp (p : ProviderOffRampPayload)
  | send (p : BlockchainSendPayload)

def ExecIntent.handler (w : Workers) : ExecIntent → Handler
  | .onRamp p => handleOnRamp w.onRampProviders p
  | .offRamp p => handleOffRamp w.offRampProviders p
  | .send p => handleSend w.chains p

/-! ## What the steps do -/

/-- Everything a step of a delivery can do, from one state to the next and on to a
position. -/
inductive Does : Step → Answer → Execution → Execution → Pos Step Delivery → Prop
  | claimError {p a s} : a.reply ≠ .ok →
      Does (.claim p) a s (if a.reply.applied then claimProviderTransaction p s else s) (.returned .nak)
  | claimTaken {p a s q} : a.reply = .ok → s.row.isSome → q = .returned .ack ∨ q = .before .inspect →
      Does (.claim p) a s s q
  | claimWon {p a s q} : a.reply = .ok → s.row = none →
      (∃ r, q = .before (.call p r)) ∨ q = .before (.record failedTx) →
      Does (.claim p) a s (claimProviderTransaction p s) q
  | called {p r a s tx tx'} : a.called = .ok tx →
      Does (.call p r) a s { s with executed := s.executed ++ [⟨p, r, tx⟩] } (.before (.record tx'))
  | circuitOpen {p r a s e} : a.called = .error e → e.fault = .circuitOpen → Does (.call p r) a s s (.returned .nak)
  | callFailed {p r a s e q} : a.called = .error e →
      q = .before (.call p r) ∨ q = .before .switchRoute ∨ q = .before (.record failedTx) → Does (.call p r) a s s q
  | switchRefused {a s} : Does .switchRoute a s s (.before (.record failedTx))
  | record {tx a s t q} :
      (q = .returned .ack ∧ tx.status = "pending") ∨ (∃ h, q = .before (.track h) ∧ toLower tx.status = "pending") ∨
        (∃ r, q = .before (.report r)) →
      Does (.record tx) a s { (if a.reply.applied then updateProviderTransaction tx s else s) with tracked := t } q
  | report {r a s} :
      Does (.report r) a s (if a.reply.applied then { s with accepted := s.accepted ++ [r] } else s)
        (.returned (if a.reply = .ok then .ack else .nak))
  | inspect {a s q} : (∃ o, q = .returned o) ∨ (∃ h, q = .before (.poll h)) → Does .inspect a s s q
  | poll {h a s q} :
      q = .returned .ack ∨ (∃ h', q = .before (.track h')) ∨
        (∃ tx, q = .before (.record tx) ∧ toLower tx.status ≠ "pending") →
      Does (.poll h) a s s q
  | track {h a s} : Does (.track h) a s (trackPending a.mapFull h s) (.returned .ack)

variable {a : Answer} {fallback : ExecError → Handler} {s : Execution} {q : Pos Step Delivery}
  {r : ProviderRequest} {w : Ramp} {g : Step} {op p : String}

theorem claimProviderTransaction_taken (h : s.row.isSome) : claimProviderTransaction p s = s := by
  obtain ⟨r, hr⟩ := Option.isSome_iff_exists.1 h
  simp [claimProviderTransaction, hr]

theorem report_follows (r : IntentResult) : (report r).Follows Does := by
  intro a s
  have hdoes := Does.report (r := r) (a := a) (s := s)
  cases h : a.reply <;> simp only [h] at hdoes ⊢ <;> exact ⟨hdoes, trivial⟩

theorem recordThen_follows {tx : ProviderTx} {next : Handler} (hnext : next.Follows Does)
    (hq : (next.pos = .returned .ack ∧ tx.status = "pending") ∨
      (∃ h, next.pos = .before (.track h) ∧ toLower tx.status = "pending") ∨ (∃ r, next.pos = .before (.report r))) :
    (recordThen tx next).Follows Does := by
  intro a s
  refine ⟨?_, hnext⟩
  have hdoes := Does.record (a := a) (s := s)
    (t := (if a.reply.applied then updateProviderTransaction tx s else s).tracked) hq
  exact hdoes

theorem reportFailure_follows (error : String) : (reportFailure error).Follows Does :=
  recordThen_follows (report_follows _) (.inr (.inr ⟨_, rfl⟩))

theorem claimThen_follows {won taken : Handler} (hwon : won.Follows Does) (htaken : taken.Follows Does)
    (hq : (∃ r, won.pos = .before (.call p r)) ∨ won.pos = .before (.record failedTx))
    (hq' : taken.pos = .returned .ack ∨ taken.pos = .before .inspect) :
    (claimThen p (.ret .nak) won taken).Follows Does := by
  intro a s
  have herr : a.reply ≠ .ok → _ := Does.claimError (p := p) (a := a) (s := s)
  cases ha : a.reply with
  | ok =>
    cases hrow : s.row with
    | none =>
      have hdoes := Does.claimWon ha hrow hq
      simpa [ha, hrow, Reply.applied] using And.intro hdoes hwon
    | some r =>
      have htake : s.row.isSome := by simp [hrow]
      have hdoes := Does.claimTaken (p := p) ha htake hq'
      simpa [ha, hrow, Reply.applied, claimProviderTransaction_taken htake] using And.intro hdoes htaken
  | error | lost => simp only [ha] at herr ⊢; exact ⟨herr nofun, trivial⟩

def AfterCall (p : String) (r : ProviderRequest) (a : Answer) (next : Handler) : Prop :=
  next.Follows Does ∧
    match a.called with
    | .ok _ => ∃ tx', next.pos = .before (.record tx')
    | .error e => (next.pos = .returned .nak ∧ e.fault = .circuitOpen) ∨
        next.pos = .before (.call p r) ∨ next.pos = .before .switchRoute ∨ next.pos = .before (.record failedTx)

theorem callThen_follows {k : Answer → Handler} (hk : ∀ a, AfterCall p r a (k a)) :
    (callThen p r k).Follows Does := by
  intro a s
  obtain ⟨hfol, hpos⟩ := hk a
  refine ⟨?_, hfol⟩
  cases ha : a.called with
  | ok tx =>
    obtain ⟨tx', htx'⟩ : ∃ tx', (k a).pos = .before (.record tx') := by simpa [ha] using hpos
    rw [htx']
    simp only [ha]
    exact .called ha
  | error e =>
    simp only [ha] at hpos ⊢
    rcases hpos with ⟨hnak, hopen⟩ | hpos
    · rw [hnak]; exact .circuitOpen ha hopen
    · exact .callFailed ha hpos

/-! ### The provider worker -/

variable {result : Except ExecError ProviderTx} {s' : Execution}

theorem retryVerdict_some {n : ℕ} (h : retryVerdict op n a = some result) :
    (∃ tx, result = .ok tx ∧ a.called = .ok tx) ∨
      ∃ e e', result = .error e ∧ a.called = .error e' ∧ (e.fault = .circuitOpen → e'.fault = .circuitOpen) := by
  unfold retryVerdict at h
  split at h
  · rename_i tx htx
    exact .inl ⟨tx, (Option.some.inj h).symm, htx⟩
  · rename_i e' he'
    refine .inr ?_
    split at h
    · exact ⟨e', e', (Option.some.inj h).symm, he', id⟩
    · split at h
      · exact ⟨_, e', (Option.some.inj h).symm, he', nofun⟩
      · refine ⟨_, e', (Option.some.inj h).symm, he', ?_⟩
        split
        · exact id
        · nofun
      · split at h
        · exact ⟨_, e', (Option.some.inj h).symm, he', id⟩
        · cases h

theorem retryVerdict_none {n : ℕ} (h : retryVerdict op n a = none) : ∃ e, a.called = .error e := by
  unfold retryVerdict at h
  split at h
  · cases h
  · rename_i e he; exact ⟨e, he⟩

def AfterFailure (next : Handler) : Prop :=
  next.Follows Does ∧ (next.pos = .before .switchRoute ∨ next.pos = .before (.record failedTx))

theorem finishCall_after (hf : ∀ e, AfterFailure (fallback e))
    (h : (∃ tx, result = .ok tx ∧ a.called = .ok tx) ∨
      ∃ e e', result = .error e ∧ a.called = .error e' ∧ (e.fault = .circuitOpen → e'.fault = .circuitOpen)) :
    AfterCall p r a (finishCall w fallback result) := by
  rcases h with ⟨tx, rfl, ha⟩ | ⟨e, e', rfl, ha, hopen⟩
  · simp only [AfterCall, ha, finishCall]
    refine ⟨recordThen_follows ?_ ?_, tx, rfl⟩
    · split
      · trivial
      · exact report_follows _
    · split
      · rename_i h; exact .inl ⟨rfl, h⟩
      · exact .inr (.inr ⟨_, rfl⟩)
  · simp only [AfterCall, ha, finishCall]
    split
    · rename_i hc; exact ⟨trivial, .inl ⟨rfl, hopen hc⟩⟩
    · exact ⟨(hf e).1, .inr (.inr (hf e).2)⟩

theorem retryCall_follows (hf : ∀ e, AfterFailure (fallback e)) (more : ℕ) :
    (retryCall op p r (finishCall w fallback) more).Follows Does := by
  induction more with
  | zero =>
    refine callThen_follows fun a => finishCall_after hf ?_
    cases h : retryVerdict op maxAttempts a with
    | some result => exact retryVerdict_some h
    | none =>
      obtain ⟨e, he⟩ := retryVerdict_none h
      exact .inr ⟨e, e, by simp [he], he, id⟩
  | succ more ih =>
    refine callThen_follows fun a => ?_
    split
    · rename_i result h
      exact finishCall_after hf (retryVerdict_some h)
    · rename_i h
      obtain ⟨e, he⟩ := retryVerdict_none h
      -- another attempt: the same call again
      refine ⟨ih, ?_⟩
      simp only [he]
      exact .inr (.inl (by cases more <;> rfl))

theorem rampRound_follows (hf : ∀ e, AfterFailure (fallback e)) : (rampRound w p r fallback).Follows Does := by
  refine claimThen_follows ?_ trivial ?_ (.inl rfl)
  · split
    · exact retryCall_follows hf _
    · exact reportFailure_follows _
  · split
    · exact .inl ⟨r, rfl⟩
    · exact .inr rfl

theorem executeRamp_follows (w : Ramp) (p : String) (r : ProviderRequest) (alts : List Fallback) :
    (executeRamp w p r alts).Follows Does := by
  cases alts with
  | nil => exact rampRound_follows fun e => ⟨reportFailure_follows _, .inr rfl⟩
  | cons alt remaining =>
    rw [executeRamp_cons]
    exact rampRound_follows fun e => ⟨fun _ _ => ⟨.switchRefused, reportFailure_follows _⟩, .inl rfl⟩

/-! ### The blockchain worker -/

theorem finishPending_follows (existing : ProviderTx) (status : String) (r : IntentResult) :
    (finishPending existing status r).Follows Does :=
  fun _ _ => ⟨.record (.inr (.inr ⟨r, rfl⟩)), report_follows r⟩

theorem checkPendingTx_follows (chains : List CryptoChain) (p : BlockchainSendPayload) (existing : ProviderTx) :
    (checkPendingTx chains p existing).Follows Does := by
  unfold checkPendingTx
  have hconfirmed : toLower "confirmed" ≠ "pending" := by decide
  have hfailed : toLower "failed" ≠ "pending" := by decide
  split
  · intro a s
    dsimp only
    split
    · exact ⟨.poll (.inl rfl), trivial⟩
    · split
      · exact ⟨.poll (.inr (.inr ⟨_, rfl, hconfirmed⟩)), finishPending_follows _ _ _⟩
      · split
        · exact ⟨.poll (.inr (.inr ⟨_, rfl, hfailed⟩)), finishPending_follows _ _ _⟩
        · exact ⟨.poll (.inr (.inl ⟨_, rfl⟩)), fun _ _ => ⟨.track, trivial⟩⟩
  · trivial

theorem sendTransaction_follows (p : BlockchainSendPayload) : (sendTransaction p).Follows Does := by
  refine callThen_follows fun a => ?_
  cases ha : a.called with
  | error e =>
    simp only [AfterCall, ha]
    split
    · rename_i h; exact ⟨trivial, .inl ⟨rfl, h⟩⟩
    · exact ⟨reportFailure_follows _, .inr (.inr (.inr rfl))⟩
  | ok tx =>
    simp only [AfterCall, ha]
    refine ⟨recordThen_follows ?_ ?_, _, rfl⟩
    · split
      · exact fun _ _ => ⟨.track, trivial⟩
      · split <;> exact report_follows _
    · split
      · rename_i h; exact .inr (.inl ⟨_, rfl, h⟩)
      · split <;> exact .inr (.inr ⟨_, rfl⟩)

theorem handleSend_follows (chains : List CryptoChain) (p : BlockchainSendPayload) :
    (handleSend chains p).Follows Does := by
  refine claimThen_follows ?_ ?_ ?_ (.inr rfl)
  · split
    · exact sendTransaction_follows p
    · exact reportFailure_follows _
  · intro a s
    dsimp only
    split
    · split
      · split
        · refine ⟨.inspect ?_, checkPendingTx_follows _ _ _⟩
          unfold checkPendingTx
          split
          · exact .inr ⟨_, rfl⟩
          · exact .inl ⟨_, rfl⟩
        · exact ⟨.inspect (.inl ⟨_, rfl⟩), trivial⟩
      · exact ⟨.inspect (.inl ⟨_, rfl⟩), trivial⟩
    · exact ⟨.inspect (.inl ⟨_, rfl⟩), trivial⟩
  · split
    · exact .inl ⟨_, rfl⟩
    · exact .inr rfl

/-- **The handlers do what `Does` says.** -/
theorem handler_follows (w : Workers) (it : ExecIntent) : (it.handler w).Follows Does := by
  cases it with
  | onRamp | offRamp => exact executeRamp_follows _ _ _ _
  | send p => exact handleSend_follows _ _

theorem handler_pos (w : Workers) (it : ExecIntent) : ∃ p, (it.handler w).pos = .before (.claim p) := by
  have hramp : ∀ ramp p r alts, (executeRamp ramp p r alts).pos = .before (.claim p) := by
    intro ramp p r alts; cases alts <;> rfl
  cases it with
  | onRamp | offRamp => exact ⟨_, hramp _ _ _ _⟩
  | send p => exact ⟨_, rfl⟩

/-! ## At most one execution -/

/-- The row is taken while it exists, and who is about to call the provider owns it. -/
def slot : Slot Execution Step where
  taken s := s.row.isSome
  calls s := s.executed.length
  owner
    | .call _ _ => true
    | _ => false

@[simp] theorem updateProviderTransaction_isSome (tx : ProviderTx) (s : Execution) :
    (updateProviderTransaction tx s).row.isSome = s.row.isSome := by
  unfold updateProviderTransaction
  split
  · split <;> simp_all
  · rfl

@[simp] theorem updateProviderTransaction_executed (tx : ProviderTx) (s : Execution) :
    (updateProviderTransaction tx s).executed = s.executed := by
  unfold updateProviderTransaction
  split
  · split <;> rfl
  · rfl

@[simp] theorem trackPending_row (full : Bool) (h : String) (s : Execution) : (trackPending full h s).row = s.row := by
  unfold trackPending
  split <;> rfl

@[simp] theorem trackPending_executed (full : Bool) (h : String) (s : Execution) :
    (trackPending full h s).executed = s.executed := by
  unfold trackPending
  split <;> rfl

@[simp] theorem trackPending_accepted (full : Bool) (h : String) (s : Execution) :
    (trackPending full h s).accepted = s.accepted := by
  unfold trackPending
  split <;> rfl

theorem claim_discipline (p : String) (hg : slot.owner g = false) (s : Execution)
    (hq : s.row.isSome → slot.owns q = false) : Discipline slot g s (claimProviderTransaction p s) q := by
  cases hrow : s.row with
  | none =>
    have hfree : slot.taken s = false := by simp [slot, hrow]
    have htaken : slot.taken (claimProviderTransaction p s) = true := by simp [slot, claimProviderTransaction, hrow]
    exact .take hg hfree htaken (by simp [slot, claimProviderTransaction, hrow])
  | some r =>
    have htaken : s.row.isSome := by simp [hrow]
    rw [claimProviderTransaction_taken htaken]
    exact .other rfl rfl (by simp [hq htaken])

/-- **Only the owner of the row calls the provider.** -/
theorem does_discipline (h : Does g a s s' q) : Discipline slot g s s' q := by
  cases h with
  | claimError ha =>
    split
    · exact claim_discipline _ rfl s fun _ => rfl
    · exact .other rfl rfl nofun
  | claimTaken ha hrow hq => rcases hq with rfl | rfl <;> exact .other rfl rfl nofun
  | claimWon ha hrow hq => exact claim_discipline _ rfl s (by simp [hrow])
  | called ha => exact .call rfl rfl (by simp [slot]) rfl
  | circuitOpen ha he => exact .other rfl rfl nofun
  | callFailed ha hq => exact .other rfl rfl fun _ => rfl
  | switchRefused => exact .other rfl rfl nofun
  | record hq =>
    have hown : slot.owns q = false := by rcases hq with ⟨rfl, -⟩ | ⟨h, rfl, -⟩ | ⟨r, rfl⟩ <;> rfl
    refine .other ?_ ?_ (by simp [hown]) <;> split <;> simp [slot]
  | report => split <;> exact .other rfl rfl nofun
  | inspect hq => rcases hq with ⟨o, rfl⟩ | ⟨h, rfl⟩ <;> exact .other rfl rfl nofun
  | poll hq => rcases hq with rfl | ⟨h, rfl⟩ | ⟨tx, rfl, -⟩ <;> exact .other rfl rfl nofun
  | track => exact .other (by simp [slot]) (by simp [slot]) nofun

/-- **At most one execution.** Whatever deliveries of the intent are started, answered or cut off by
crashes, at most one call of a provider or chain returns without error. -/
theorem executes_at_most_once (w : Workers) (it : ExecIntent) (route : TransferRoute) (as : List (Action Unit Answer)) :
    (run (System.act fun _ => it.handler w) (System.init (Execution.init route)) as).state.executed.length ≤ 1 := by
  obtain ⟨p, hp⟩ := handler_pos w it
  exact at_most_once slot (fun _ => handler_follows w it) (fun _ _ _ _ _ => does_discipline)
    (fun _ => by rw [hp]; rfl) rfl as

/-! ## No acknowledged intent is unsettled -/

/-- A transaction of status pending, in any case, with a reference of the provider. -/
def ProviderTx.awaited (tx : ProviderTx) : Bool :=
  toLower tx.status == "pending" && (tx.externalID != "" || tx.txHash != "")

/-- The engine has accepted a result, or a pending transaction is recorded. -/
def Execution.settled (s : Execution) : Bool := !s.accepted.isEmpty || s.row.any fun r => r.tx.awaited

def Answer.circuitOpen (a : Answer) : Bool :=
  match a.called with
  | .error e => e.fault = .circuitOpen
  | .ok _ => false

/-- No reply of a claim is lost, no circuit is open, the engine accepts what is reported, and a
pending transaction is recorded and has a reference. -/
def smooth : Step → Answer → Prop
  | .claim _, a => a.reply ≠ .lost
  | .call _ _, a => a.circuitOpen = false
  | .record tx, a => toLower tx.status = "pending" → a.reply.applied ∧ tx.awaited
  | .report _, a => a.reply.applied
  | _, _ => True

instance (g : Step) (a : Answer) : Decidable (smooth g a) := by cases g <;> unfold smooth <;> infer_instance

/-- The steps that are not between a claim that was won and its end. -/
def mayCrash : Step → Prop
  | .claim _ | .inspect | .poll _ | .track _ => True
  | _ => False

instance (g : Step) : Decidable (mayCrash g) := by cases g <;> unfold mayCrash <;> infer_instance

def Execution.open (s : Execution) : Prop := ∃ r, s.row = some r ∧ r.tx.terminal = false

def known (s : Execution) : Pos Step Delivery → Prop
  | .before (.claim _) => s.row.isSome → s.settled
  | .before (.call _ _) | .before .switchRoute => s.open
  | .before (.record tx) => toLower tx.status = "pending" → s.open
  | .before (.report _) => True
  | .before .inspect | .before (.poll _) | .before (.track _) => s.settled
  | .returned .ack => s.settled
  | .returned .nak => s.row.isSome → s.settled

theorem claim_open (h : s.row = none) : (claimProviderTransaction p s).open := by
  refine ⟨⟨p, ⟨"", "claiming", ""⟩⟩, ?_, rfl⟩
  simp [claimProviderTransaction, h]

theorem record_settled {tx : ProviderTx} {t : Option String} (hs : s.open) (ha : a.reply.applied ∧ tx.awaited) :
    Execution.settled { (if a.reply.applied then updateProviderTransaction tx s else s) with tracked := t } := by
  obtain ⟨r, hr, hopen⟩ := hs
  simp [updateProviderTransaction, hr, hopen, Execution.settled, ha.1, ha.2]

/-- **One smooth step** passes on what is known. -/
theorem known_step (hs : known s (.before g)) (ha : smooth g a) (h : Does g a s s' q) : known s' q := by
  have hfailed : toLower failedTx.status ≠ "pending" := by decide
  have hlower : toLower "pending" = "pending" := by decide
  cases h with
  | claimError hne =>
    -- the reply is not lost, so nothing was written
    have herr : a.reply = .error := by
      cases hr : a.reply with
      | ok => exact absurd hr hne
      | error => rfl
      | lost => exact absurd hr ha
    simpa [known, herr, Reply.applied] using hs
  | claimTaken _ hrow hq => rcases hq with rfl | rfl <;> exact hs hrow
  | claimWon _ hrow hq =>
    rcases hq with ⟨r, rfl⟩ | rfl
    · exact claim_open hrow
    · exact fun _ => claim_open hrow
  | called _ => exact fun _ => hs
  | circuitOpen he hc =>
    have hopen : a.circuitOpen = true := by simp [Answer.circuitOpen, he, hc]
    exact absurd ha (by simp [smooth, hopen])
  | callFailed _ hq =>
    rcases hq with rfl | rfl | rfl
    · exact hs
    · exact hs
    · exact fun hp => absurd hp hfailed
  | switchRefused => exact fun hp => absurd hp hfailed
  | @record tx a s t q hq =>
    rcases hq with ⟨rfl, hp⟩ | ⟨h, rfl, hp⟩ | ⟨r, rfl⟩
    · have hlow : toLower tx.status = "pending" := by rw [hp, hlower]
      exact record_settled (hs hlow) (ha hlow)
    · exact record_settled (hs hp) (ha hp)
    · trivial
  | report =>
    have happlied : a.reply.applied = true := ha
    rw [if_pos happlied]
    split <;> simp [known, Execution.settled]
  | inspect hq =>
    rcases hq with ⟨o, rfl⟩ | ⟨h, rfl⟩
    · cases o with
      | ack => exact hs
      | nak => exact fun _ => hs
    · exact hs
  | poll hq =>
    rcases hq with rfl | ⟨h, rfl⟩ | ⟨tx, rfl, htx⟩
    · exact hs
    · exact hs
    · exact fun hp => absurd hp htx
  | track =>
    have hsettled : s.settled := hs
    show (trackPending _ _ s).settled
    simpa [Execution.settled] using hsettled

theorem known_again {o : Option Delivery} (h : Ended mayCrash known s o) : s.row.isSome → s.settled := by
  intro hrow
  rcases o with _ | o
  · obtain ⟨g, hcrash, hg⟩ := h
    cases g with
    | claim p => exact hg hrow
    | inspect | poll | track => exact hg
    | _ => exact hcrash.elim
  · cases o with
    | ack => exact h
    | nak => exact h hrow

/-- **Smooth deliveries lose nothing.** When the deliveries follow one another and nothing goes
wrong between a claim and its end, every acknowledged delivery leaves the intent settled. -/
theorem acked_settled (w : Workers) (it : ExecIntent) (route : TransferRoute) (deliveries : List (List Answer))
    (h : (it.handler w).RerunWithin smooth mayCrash (Execution.init route) deliveries) :
    ∀ x ∈ (it.handler w).rerun (Execution.init route) deliveries, x.2 = some .ack → x.1.settled := by
  intro x hx hack
  obtain ⟨p, hp⟩ := handler_pos w it
  have hagain : ∀ s o, Ended mayCrash known s o → known s (it.handler w).pos := by
    intro s o ho
    rw [hp]
    exact known_again ho
  have hinit : known (Execution.init route) (it.handler w).pos := by rw [hp]; nofun
  have hend := rerun_keeps (handler_follows w it) (fun _ _ _ _ _ => known_step) hagain hinit h x hx
  rw [hack] at hend
  exact hend

def sampleOnRamp : ProviderOnRampPayload := ⟨1, 2, "p", 100, "GBP", "USDT", "ref", [], 1⟩

def sampleWorkers : Workers := ⟨["p"], [], []⟩

def sampleRoute : TransferRoute := ⟨"p", "q", "tron", "USDT"⟩

def openCircuit : List (List Answer) :=
  [[{}, { called := .error ⟨.circuitOpen, "circuit open"⟩ }], [{}]]

theorem acked_unsettled :
    ∃ x ∈ (ExecIntent.handler sampleWorkers (.onRamp sampleOnRamp)).rerun (Execution.init sampleRoute) openCircuit,
      x.2 = some .ack ∧ x.1.settled = false := by
  decide +kernel

def pendingOnRamp : List (List Answer) :=
  [[], [{}, { called := .ok ⟨"ext-1", "pending", ""⟩ }, {}], [{}]]

theorem acked_settled_pending :
    (ExecIntent.handler sampleWorkers (.onRamp sampleOnRamp)).RerunWithin smooth mayCrash (Execution.init sampleRoute)
      pendingOnRamp ∧
    ∀ x ∈ (ExecIntent.handler sampleWorkers (.onRamp sampleOnRamp)).rerun (Execution.init sampleRoute) pendingOnRamp,
      x.2 = some .ack → x.1.settled :=
  ⟨by decide +kernel, acked_settled sampleWorkers (.onRamp sampleOnRamp) sampleRoute pendingOnRamp (by decide +kernel)⟩

end Settla.Node
