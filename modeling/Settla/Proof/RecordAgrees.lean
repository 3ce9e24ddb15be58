import Settla.Proof.Swallowed

/-!
# The provider record and the engine

A webhook writes the status if the row it has read is neither completed nor confirmed, and then calls the
engine. So one that has read the row while it was pending can still complete it after a failure.
-/

namespace Settla.Node.Inbound

open Settla.Core Lib Lib.Threads List

def succeeds (status : String) : Bool := status == "completed" || status == "confirmed"

def Inbox.accepted (s : Inbox) : List IntentResult := (s.verdicts.filter fun x => x.2 = .accepted).map (·.1)

def Inbox.recorded (s : Inbox) (kind : TxType) (status : String → Bool) : Bool := (s.rows kind).any fun tx => status tx.status

/-- A webhook that reports a final status, with its result. -/
structure Final where
  payload : ProviderWebhookPayload
  result : IntentResult
  final : payload.result = some result

theorem Final.terminal (w : Final) : isTerminal w.payload.status ∧ w.result.success = succeeds w.payload.status := by
  have h := w.final
  unfold ProviderWebhookPayload.result at h
  unfold isTerminal succeeds
  split_ifs at h with hsuccess hfailed
  · rw [← Option.some.inj h]
    rcases hsuccess with hstatus | hstatus <;> simp [hstatus]
  · rw [← Option.some.inj h]
    simp [hfailed]

/-! ## The environment -/

/-- The amounts of a transfer leave something after the fee. -/
def TxType.covers : TxType → Transfer → String → Bool
  | .onRamp, t, _ => 0 < t.sourceAmount - t.fees.onRampFee
  | .offRamp, t, slug => 0 < t.sourceAmount - t.fees.totalFeeUSD ∧ validateLedgerLines (completionLines t slug) = .ok ()

/-- The engine can load the tenant and post the amounts. -/
def Payable (kind : TxType) (l : Lookups) (t : Transfer) : Prop := ∃ slug ∈ l.getTenant t.tenantID, kind.covers t slug

instance (kind : TxType) (l : Lookups) (t : Transfer) : Decidable (Payable kind l t) :=
  inferInstanceAs (Decidable (∃ slug ∈ _, _))

def bringing : Pos Step Delivery → Option IntentResult
  | .before (.engine _ _ r) => some r
  | _ => none

/-- The update does not fail, nobody else calls the engine and the call reaches it, and no success
is written over a failure. -/
def Allows (kind : TxType) (s : Inbox) : Step → Answer → Prop
  | .update _ p _, a => a.reply = .ok ∧ (succeeds p.status = true → s.recorded kind (· == "failed") = false)
  | .engine _ _ _, a => a.reply ≠ .error ∧ a.others = [] ∧ Payable kind a.lookups s.transfer
  | _, _ => True

instance (kind : TxType) (s : Inbox) : ∀ g a, Decidable (Allows kind s g a)
  | .update _ p _, a =>
    inferInstanceAs (Decidable (a.reply = .ok ∧ (succeeds p.status = true → s.recorded kind (· == "failed") = false)))
  | .engine _ _ _, a => inferInstanceAs (Decidable (a.reply ≠ .error ∧ a.others = [] ∧ Payable kind a.lookups s.transfer))
  | .insertRaw _, _ | .checkDuplicate _, _ | .markProcessed _ _, _ | .lookup _ _, _ => .isTrue trivial

/-- The same for a run; and nobody crashes before the engine. -/
def Orderly (kind : TxType) (s : Inbox) (ps : List (Pos Step Delivery)) : Action Final Answer → Prop
  | .start _ => True
  | .drop i => ∀ q ∈ ps[i]?, bringing q = none
  | .step i a => ∀ g ∈ ps[i]?.bind Pos.label?, Allows kind s g a

instance (kind : TxType) (s : Inbox) (ps : List (Pos Step Delivery)) : ∀ a, Decidable (Orderly kind s ps a) := by
  rintro (_ | _ | _) <;> unfold Orderly <;> infer_instance

def DoesFinal (kind : TxType) (g : Step) (a : Answer) (s s' : Inbox) (q : Pos Step Delivery) : Prop :=
  ∃ w : Final, Does kind w.payload w.result g a s s' q

theorem plan_in_step {kind : TxType} {l : Lookups} {t : Transfer} (r : IntentResult) (hpayable : Payable kind l t)
    (hstep : t.status = kind.step) : ∃ st es, (kind.call r).plan l t = .transition st es := by
  obtain ⟨slug, htenant, hcovers⟩ := hpayable
  rw [Option.mem_def] at htenant
  cases kind with
  | onRamp =>
    have hnet : 0 < t.sourceAmount - t.fees.onRampFee := of_decide_eq_true hcovers
    have hstep : t.status = .onRamping := hstep
    simp only [TxType.call, EngineCall.plan, handleOnRampResult, hstep, htenant, hnet, ne_eq, not_true_eq_false, if_false]
    split_ifs <;> exact ⟨_, _, rfl⟩
  | offRamp =>
    obtain ⟨hnet, hlines⟩ : 0 < t.sourceAmount - t.fees.totalFeeUSD ∧ validateLedgerLines (completionLines t slug) = .ok () :=
      of_decide_eq_true hcovers
    have hstep : t.status = .offRamping := hstep
    simp only [TxType.call, EngineCall.plan, offRampPrecheck, completeTransfer, offRampFailure, hstep, htenant, hnet, hlines,
      ne_eq, not_true_eq_false, if_false]
    split_ifs <;> exact ⟨_, _, rfl⟩

/-! ## Row and engine -/

def Inbox.owns (s : Inbox) (p : ProviderWebhookPayload) : Prop :=
  p.transferID = s.transfer.id ∧ p.tenantID = s.transfer.tenantID

def Knows (s : Inbox) : Pos Step Delivery → Prop
  | .before (.update _ p tx) => s.owns p ∧ tx.status = p.status ∧ isTerminal p.status
  | .before (.engine _ p _) => s.owns p
  | _ => True

/-- Before the row is final no webhook has passed the update; after that all results agree with the
row, and one of them is accepted or still to come. -/
def Agreeing (kind : TxType) (s : Inbox) (coming : List IntentResult) : Prop :=
  ∃ tx, s.rows kind = some tx ∧
    (isTerminal tx.status = false ∧ s.accepted = [] ∧ coming = [] ∧ s.transfer.status = kind.step ∨
      isTerminal tx.status = true ∧ (∀ r ∈ s.accepted ++ coming, r.success = succeeds tx.status) ∧
        (s.accepted ≠ [] ∨ s.transfer.status = kind.step ∧ coming ≠ []))

section

variable {kind : TxType} {s s' : Inbox} {coming coming' : List IntentResult} {p : ProviderWebhookPayload} {r : IntentResult}
  {a : Answer} {tx : ProviderTx}

theorem Agreeing.perm (h : Agreeing kind s coming) (hperm : coming.Perm coming') : Agreeing kind s coming' := by
  obtain ⟨tx, hrow, ⟨hopen, haccepted, rfl, hstep⟩ | ⟨hfinal, hall, hsome⟩⟩ := h
  · exact ⟨tx, hrow, .inl ⟨hopen, haccepted, hperm.nil_eq.symm, hstep⟩⟩
  · refine ⟨tx, hrow, .inr ⟨hfinal, fun r hr => hall r ((hperm.append_left _).mem_iff.2 hr), ?_⟩⟩
    refine hsome.imp_right fun ⟨hstep, hne⟩ => ⟨hstep, fun hnil => hne ?_⟩
    rw [hnil] at hperm
    exact hperm.eq_nil

theorem terminal_cases {status : String} (h : isTerminal status = true) :
    succeeds status = true ∨ succeeds status = false ∧ status = "failed" := by
  unfold isTerminal at h
  by_cases hsuccess : (status == "completed" || status == "confirmed") = true
  · exact .inl hsuccess
  · rw [Bool.not_eq_true] at hsuccess
    rw [hsuccess, Bool.false_or] at h
    exact .inr ⟨hsuccess, by simpa using h⟩

/-- **The update**: a row that was not final takes its first status, and one that has failed stays failed. -/
theorem Agreeing.update (h : Agreeing kind s coming) (hupdatable : s.updatable kind = true)
    (hfinal : isTerminal tx.status = true)
    (horder : succeeds tx.status = true → s.recorded kind (· == "failed") = false) (hr : r.success = succeeds tx.status) :
    Agreeing kind (s.updateProviderTransaction kind tx) (r :: coming) := by
  have hnew : s.updateProviderTransaction kind tx =
      { s with rows := Function.update s.rows kind (some tx) } := if_pos hupdatable
  rw [hnew]
  refine ⟨tx, Function.update_self _ _ _, .inr ⟨hfinal, ?_⟩⟩
  obtain ⟨old, hrow, ⟨-, haccepted, rfl, hstep⟩ | ⟨hold, hall, hsome⟩⟩ := h
  · have haccepted' : Inbox.accepted { s with rows := Function.update s.rows kind (some tx) } = [] := haccepted
    rw [haccepted']
    exact ⟨by simpa using hr, .inr ⟨hstep, cons_ne_nil _ _⟩⟩
  · -- the guard leaves only a failed row, which takes no success
    have hfailed : succeeds old.status = false ∧ old.status = "failed" := by
      refine (terminal_cases hold).resolve_left fun hsuccess => ?_
      unfold Inbox.updatable ProviderTx.terminal at hupdatable
      unfold succeeds at hsuccess
      simp [hrow] at hupdatable hsuccess
      tauto
    have hsame : succeeds tx.status = succeeds old.status := by
      rw [hfailed.1, ← Bool.not_eq_true]
      intro hsuccess
      have hnot := horder hsuccess
      simp [Inbox.recorded, hrow, hfailed.2] at hnot
    rw [hsame] at hr ⊢
    refine ⟨fun x hx => ?_, hsome.imp_right fun ⟨hstep, _⟩ => ⟨hstep, cons_ne_nil _ _⟩⟩
    rcases mem_cons.1 (perm_middle.mem_iff.1 hx) with rfl | hx
    · exact hr
    · exact hall x hx

theorem accepted_answer (s : Inbox) (kind : TxType) (p : ProviderWebhookPayload) (r : IntentResult) (a : Answer) :
    (s.answer kind p r a).accepted =
      s.accepted ++ if (handleResult kind p r a s.transfer).2.1 = .accepted then [r] else [] := by
  unfold Inbox.accepted Inbox.answer
  by_cases haccepted : (handleResult kind p r a s.transfer).2.1 = .accepted <;> simp [haccepted]

theorem handleResult_accepted (howns : s.owns p) (hreply : a.reply ≠ .error) (hothers : a.others = [])
    (hpayable : Payable kind a.lookups s.transfer) (hstep : s.transfer.status = kind.step) :
    (handleResult kind p r a s.transfer).2.1 = .accepted := by
  obtain ⟨st, es, hplan⟩ := plan_in_step r hpayable hstep
  unfold Inbox.owns at howns
  have hrun : run served s.transfer a.others = s.transfer := by rw [hothers]; rfl
  unfold handleResult
  rw [hrun, if_neg hreply, if_neg (not_not.2 howns), hplan]

/-- **The engine**: the first result it is asked about is accepted, and every other agrees with it. -/
theorem Agreeing.answer (h : Agreeing kind s (r :: coming)) (howns : s.owns p) (hreply : a.reply ≠ .error)
    (hothers : a.others = [])
    (hpayable : Payable kind a.lookups s.transfer) : Agreeing kind (s.answer kind p r a) coming := by
  obtain ⟨tx, hrow, ⟨-, -, hnil, -⟩ | ⟨hfinal, hall, hsome⟩⟩ := h
  · cases hnil
  refine ⟨tx, hrow, .inr ⟨hfinal, fun x hx => ?_, .inl ?_⟩⟩
  · apply hall x
    rw [accepted_answer] at hx
    split_ifs at hx
    · simpa using hx
    · rw [append_nil] at hx
      exact perm_middle.mem_iff.2 (mem_cons_of_mem _ hx)
  · rw [accepted_answer]
    rcases hsome with hne | ⟨hstep, -⟩
    · exact append_ne_nil_of_left_ne_nil hne _
    · rw [if_pos (handleResult_accepted howns hreply hothers hpayable hstep)]
      exact append_ne_nil_of_right_ne_nil _ (cons_ne_nil _ _)

/-! ## Runs -/

variable {g : Step} {q : Pos Step Delivery} {w : Final}

theorem does_identity (h : Does kind p r g a s s' q) :
    s'.transfer.id = s.transfer.id ∧ s'.transfer.tenantID = s.transfer.tenantID := by
  cases h with
  | insertFailed | inserted =>
    unfold Inbox.insertRaw
    split_ifs <;> exact ⟨rfl, rfl⟩
  | updated =>
    unfold Inbox.updateProviderTransaction
    split_ifs <;> exact ⟨rfl, rfl⟩
  | markedDuplicate | marked => split_ifs <;> exact ⟨rfl, rfl⟩
  | alreadyStored | alreadyProcessed | checked | lookupFailed | nothingPending | found | conflict => exact ⟨rfl, rfl⟩
  | answered => exact handleResult_identity kind p r a s.transfer

theorem Knows.congr (h : Knows s q) (hid : s'.transfer.id = s.transfer.id ∧ s'.transfer.tenantID = s.transfer.tenantID) :
    Knows s' q := by
  have howns : ∀ p, s.owns p → s'.owns p := fun p hp => ⟨hp.1.trans hid.1.symm, hp.2.trans hid.2.symm⟩
  match q, h with
  | .before (.update _ p _), ⟨hp, hstatus⟩ => exact ⟨howns p hp, hstatus⟩
  | .before (.engine _ p _), hp => exact howns p hp
  | .before (.insertRaw _), _ | .before (.checkDuplicate _), _ | .before (.markProcessed _ _), _ | .before (.lookup _ _), _
  | .returned _, _ => trivial

theorem knows_step (h : Knows s (.before g)) (hdoes : Does kind w.payload w.result g a s s' q) : Knows s' q := by
  refine Knows.congr (s := s) ?_ (does_identity hdoes)
  cases hdoes with
  | found hget hopen =>
    unfold Inbox.getProviderTransaction at hget
    split_ifs at hget with howns
    exact ⟨howns, rfl, w.terminal.1⟩
  | updated => exact h.1
  | insertFailed | alreadyStored | inserted | alreadyProcessed | checked | markedDuplicate | marked | lookupFailed
  | nothingPending | conflict | answered => trivial

theorem agreeing_step (hknows : Knows s (.before g)) (hallows : Allows kind s g a)
    (h : Agreeing kind s ((bringing (.before g)).toList ++ coming)) (hdoes : Does kind w.payload w.result g a s s' q) :
    Agreeing kind s' ((bringing q).toList ++ coming) := by
  cases hdoes with
  | insertFailed | inserted =>
    unfold Inbox.insertRaw
    split_ifs <;> exact h
  | markedDuplicate | marked => split_ifs <;> exact h
  | alreadyStored | alreadyProcessed | checked | lookupFailed | nothingPending | found | conflict => exact h
  | @updated tx _ _ hupdatable =>
    obtain ⟨hok, horder⟩ := hallows
    obtain ⟨-, hstatus, hfinal⟩ := hknows
    rw [← hstatus] at horder hfinal
    rw [if_pos (by rw [hok]; rfl)]
    exact Agreeing.update h (hupdatable hok) hfinal horder (by rw [hstatus]; exact w.terminal.2)
  | answered =>
    obtain ⟨hreply, hothers, hpayable⟩ := hallows
    exact Agreeing.answer h hknows hreply hothers hpayable

theorem filterMap_bringing_cons (q : Pos Step Delivery) (rest : List (Pos Step Delivery)) :
    (q :: rest).filterMap bringing = (bringing q).toList ++ rest.filterMap bringing := by
  rw [filterMap_cons]
  cases bringing q <;> rfl

/-- **As long as no success is written over a failure**, row and engine agree. -/
theorem orderly_keeps (kind : TxType) : Keeps (DoesFinal kind) (fun w : Final => processNormalized kind w.payload)
    (Orderly kind)
    fun s ps => (∀ q ∈ ps, Knows s q) ∧ Agreeing kind s (ps.filterMap bringing) := by
  rintro s ps act s' ps' ⟨hknows, hagree⟩ horderly heffect
  cases heffect with
  | start w =>
    refine ⟨forall_mem_snoc hknows trivial, ?_⟩
    · rw [filterMap_append]
      exact hagree.perm (by rw [show [(processNormalized kind w.payload).pos].filterMap bringing = [] from rfl, append_nil])
  | drop i =>
    refine ⟨fun q hq => hknows q (mem_of_mem_eraseIdx hq), ?_⟩
    cases hi : ps[i]? with
    | none => rwa [eraseIdx_of_length_le (List.getElem?_eq_none_iff.1 hi)]
    | some q =>
      have hnone : bringing q = none := horderly q hi
      have hperm := (perm_rest hi).1.filterMap bringing
      rw [filterMap_bringing_cons, hnone] at hperm
      exact hagree.perm hperm
  | idle => exact ⟨hknows, hagree⟩
  | step i a g s' q hi hG =>
    obtain ⟨w, hdoes⟩ := hG
    obtain ⟨hperm, hperm'⟩ := perm_rest hi
    have hallows : Allows kind s g a := horderly g (by rw [hi]; rfl)
    have hbefore : Knows s (.before g) := hknows _ (List.mem_of_getElem? hi)
    refine ⟨forall_mem_set (fun x hx => (hknows x hx).congr (does_identity hdoes)) (knows_step hbefore hdoes), ?_⟩
    · have hcoming := hagree.perm (hperm.filterMap bringing)
      rw [filterMap_bringing_cons] at hcoming
      have hafter := agreeing_step hbefore hallows hcoming hdoes
      rw [← filterMap_bringing_cons] at hafter
      exact hafter.perm ((hperm' q).filterMap bringing).symm

end

/-- **Provider record and engine agree** after any interleaving in which no success is written over
a failure: the row has failed exactly if the engine has accepted a failure, and it is completed or
confirmed exactly if the engine has accepted a success. -/
theorem record_agrees {kind : TxType} {s : Inbox} {tx : ProviderTx} (hrow : s.rows kind = some tx)
    (hpending : isTerminal tx.status = false) (hstep : s.transfer.status = kind.step) (hnone : s.accepted = [])
    (actions : List (Action Final Answer))
    (horderly : Meets (fun w : Final => processNormalized kind w.payload) (Orderly kind) (System.init s) actions)
    (hended : ∀ q ∈ (run (System.act fun w : Final => processNormalized kind w.payload) (System.init s) actions).positions,
      q.ended = true) :
    let last := (run (System.act fun w : Final => processNormalized kind w.payload) (System.init s) actions).state
    (last.recorded kind (· == "failed") = true ↔ ∃ r ∈ last.accepted, r.success = false) ∧
    (last.recorded kind succeeds = true ↔ ∃ r ∈ last.accepted, r.success = true) := by
  intro last
  have hcode : ∀ w : Final, (processNormalized kind w.payload).Follows (DoesFinal kind) := fun w =>
    (processNormalized_follows w.final).mono fun _ _ _ _ _ h => ⟨w, h⟩
  have hstart : Agreeing kind s [] := ⟨tx, hrow, .inl ⟨hpending, hnone, rfl, hstep⟩⟩
  obtain ⟨-, -, hagree⟩ := run_keeps hcode (orderly_keeps kind) (init_following s)
    ⟨by simp [System.init, System.positions], hstart⟩
    horderly
  -- nothing is on its way any more
  have hcoming : (run (System.act fun w : Final => processNormalized kind w.payload)
      (System.init s) actions).positions.filterMap
      bringing = [] := by
    refine filterMap_eq_nil_iff.2 fun q hq => ?_
    have hq := hended q hq
    cases q with
    | before g => cases hq
    | returned d => rfl
  rw [hcoming] at hagree
  obtain ⟨tx', hrow', hagree⟩ : Agreeing kind last [] := hagree
  have hrecorded : ∀ status, last.recorded kind status = status tx'.status := fun status => by simp [Inbox.recorded, hrow']
  rw [hrecorded, hrecorded]
  rcases hagree with ⟨hopen, haccepted, -⟩ | ⟨hfinal, hall, hsome⟩
  · unfold isTerminal at hopen
    simp only [Bool.or_eq_false_iff] at hopen
    simp [haccepted, succeeds, hopen]
  · -- one result is accepted, and all of them say what the row says
    have haccepted : ∀ b, (∃ r ∈ last.accepted, r.success = b) ↔ succeeds tx'.status = b := by
      rw [append_nil] at hall
      obtain ⟨r, hr⟩ := exists_mem_of_ne_nil _ (hsome.resolve_right fun hcoming => hcoming.2 rfl)
      intro b
      constructor
      · rintro ⟨r', hr', hb⟩
        rw [← hall r' hr', hb]
      · intro hb
        exact ⟨r, hr, (hall r hr).trans hb⟩
    rw [haccepted, haccepted]
    refine ⟨?_, Iff.rfl⟩
    rcases terminal_cases hfinal with hsuccess | ⟨hnot, hfailed⟩
    · refine ⟨fun hfailed => ?_, fun hnot => by rw [hsuccess] at hnot; cases hnot⟩
      rw [beq_iff_eq.1 hfailed] at hsuccess
      cases hsuccess
    · exact ⟨fun _ => hnot, fun _ => beq_iff_eq.2 hfailed⟩

def sampleFailed : Final := ⟨{ sampleWebhook "failed" with error := "declined" }, ⟨false, "", "declined"⟩, rfl⟩

def sampleCompleted : Final := ⟨sampleWebhook "completed", ⟨true, "0x1", ""⟩, rfl⟩

def bothRead : List (Action Final Answer) :=
  [.start sampleFailed, .start sampleCompleted, .step 0 {}, .step 1 {}]

def successFirst : List (Action Final Answer) := bothRead ++ [.step 1 {}, .step 0 {}, .step 1 reachable]

theorem success_first_agrees :
    let last := (run (System.act fun w : Final => processNormalized .onRamp w.payload)
      (System.init sampleInbox) successFirst).state
    last.accepted = [⟨true, "0x1", ""⟩] ∧
    (last.recorded .onRamp (· == "failed") = true ↔ ∃ r ∈ last.accepted, r.success = false) ∧
    (last.recorded .onRamp succeeds = true ↔ ∃ r ∈ last.accepted, r.success = true) := by
  exact ⟨by decide +kernel, record_agrees rfl (by decide) rfl rfl successFirst (by decide +kernel) (by decide +kernel)⟩

/-- **The record disagrees**: the failure is written first and the engine takes it; then the success is written over it. -/
theorem record_disagrees :
    let sys := run (System.act fun w : Final => processNormalized .onRamp w.payload) (System.init sampleInbox)
      (bothRead ++ [.step 0 {}, .step 0 reachable, .step 1 {}, .step 1 reachable])
    (∀ q ∈ sys.positions, q.ended = true) ∧ sys.state.accepted = [⟨false, "", "declined"⟩] ∧
      sys.state.recorded .onRamp succeeds = true := by
  decide +kernel

end Settla.Node.Inbound
