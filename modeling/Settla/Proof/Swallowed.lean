import Settla.Node.WebhookInbound
import Settla.Proof.CreateTransfer

/-!
# Provider results that are swallowed

A webhook leaves two marks before the engine has seen its result: the status of the provider transaction and
of the log entry. If a later step fails, the next delivery finds a mark and takes the result for done.
-/

namespace Settla.Node.Inbound

open Settla.Core Lib Lib.Threads

/-! ## Steps -/

def TxType.parse (s : String) : Option TxType :=
  if s = TxType.onRamp.string then some .onRamp else if s = TxType.offRamp.string then some .offRamp else none

/-- What a message reports: the type and the payload, which a raw one has after normalization. -/
def reported (normalizers : Normalizers) : Message → Option (TxType × ProviderWebhookPayload)
  | .onRamp p => some (.onRamp, p)
  | .offRamp p => some (.offRamp, p)
  | .raw raw =>
    (normalizers raw.providerSlug).bind fun normalize =>
      match normalize raw.providerSlug raw.rawBody with
      | .ok (some p) => (TxType.parse p.txType).map (·, p)
      | _ => none

def Inbox.answer (s : Inbox) (kind : TxType) (p : ProviderWebhookPayload) (r : IntentResult) (a : Answer) : Inbox :=
  { s with
    transfer := (handleResult kind p r a s.transfer).1
    verdicts := s.verdicts ++ [(r, (handleResult kind p r a s.transfer).2.1)] }

/-- What the steps of a delivery do that reports `r` in payload `p`. -/
inductive Does (kind : TxType) (p : ProviderWebhookPayload) (r : IntentResult) :
    Step → Answer → Inbox → Inbox → Pos Step Delivery → Prop
  | insertFailed {raw a s} : a.reply ≠ .ok →
      Does kind p r (.insertRaw raw) a s (if a.reply.applied then s.insertRaw raw a.now else s) (.returned .nak)
  | alreadyStored {raw a s} : s.stored raw a.now → Does kind p r (.insertRaw raw) a s s (.returned .ack)
  | inserted {raw a s} : Does kind p r (.insertRaw raw) a s (s.insertRaw raw a.now) (.before (.checkDuplicate raw))
  | alreadyProcessed {raw a s id} : s.checkDuplicate raw →
      Does kind p r (.checkDuplicate raw) a s s (.before (.markProcessed id .duplicate))
  | checked {raw a s id} : Does kind p r (.checkDuplicate raw) a s s (.before (.markProcessed id .processed))
  | markedDuplicate {id a s} : Does kind p r (.markProcessed id .duplicate) a s
      (if a.reply.applied then s.markProcessed id .duplicate else s) (.returned .ack)
  | marked {id a s} : Does kind p r (.markProcessed id .processed) a s
      (if a.reply.applied then s.markProcessed id .processed else s) (.before (.lookup kind p))
  | lookupFailed {a s} : a.reply ≠ .ok → Does kind p r (.lookup kind p) a s s (.returned .nak)
  | nothingPending {a s} : (∀ tx, s.getProviderTransaction kind p = some tx → isTerminal tx.status) →
      Does kind p r (.lookup kind p) a s s (.returned .ack)
  | found {a s existing} : s.getProviderTransaction kind p = some existing → isTerminal existing.status = false →
      Does kind p r (.lookup kind p) a s s (.before (.update kind p (merged existing p)))
  | conflict {tx a s} : s.updatable kind = false → Does kind p r (.update kind p tx) a s s (.returned .ack)
  | updated {tx a s} : (a.reply = .ok → s.updatable kind) → Does kind p r (.update kind p tx) a s
      (if a.reply.applied then s.updateProviderTransaction kind tx else s) (.before (.engine kind p r))
  | answered {a s} : Does kind p r (.engine kind p r) a s (s.answer kind p r a)
      (.returned (if (handleResult kind p r a s.transfer).2.2 then .ack else .nak))

variable {a : Answer} {s : Inbox} {normalizers : Normalizers} {raw : RawWebhookPayload}

section

variable {kind : TxType} {p : ProviderWebhookPayload} {r : IntentResult}

theorem report_eq (hr : p.result = some r) : report kind p = .act (.engine kind p r)
    (fun a s => s.answer kind p r a)
    fun a s => if (handleResult kind p r a s.transfer).2.2 then .ret .ack else .ret .nak := by
  unfold report
  rw [hr]
  rfl

theorem report_follows (hr : p.result = some r) : (report kind p).Follows (Does kind p r) := by
  rw [report_eq hr]
  intro a s
  have hanswer : Does kind p r (.engine kind p r) a s (s.answer kind p r a) _ := .answered
  dsimp only
  split_ifs at hanswer ⊢ <;> exact ⟨hanswer, trivial⟩

theorem updateThen_follows (hr : p.result = some r) (tx : ProviderTx) : (updateThen kind p tx).Follows (Does kind p r) := by
  intro a s
  dsimp only
  by_cases hconflict : a.reply = .ok ∧ ¬ s.updatable kind
  · rw [if_pos hconflict]
    obtain ⟨hok, hupdatable⟩ := hconflict
    have hsame : (if a.reply.applied then s.updateProviderTransaction kind tx else s) = s := by
      unfold Inbox.updateProviderTransaction
      rw [if_neg hupdatable, ite_self]
    rw [hsame]
    exact ⟨.conflict (by simpa using hupdatable), trivial⟩
  · rw [if_neg hconflict]
    refine ⟨?_, report_follows hr⟩
    rw [report_eq hr]
    exact .updated fun hok => by_contra fun hnot => hconflict ⟨hok, hnot⟩

theorem processNormalized_follows (hr : p.result = some r) : (processNormalized kind p).Follows (Does kind p r) := by
  intro a s
  dsimp only
  split
  · rename_i hok
    split
    · rename_i hnone
      exact ⟨.nothingPending (by rw [hnone]; nofun), trivial⟩
    · rename_i existing hfound
      split_ifs with hterminal
      · refine ⟨.nothingPending fun tx htx => ?_, trivial⟩
        rw [hfound] at htx
        cases htx
        exact hterminal
      · exact ⟨.found hfound (by simpa using hterminal), updateThen_follows hr _⟩
  · rename_i hnot
    exact ⟨.lookupFailed hnot, trivial⟩

theorem normalizeThen_follows (hr : p.result = some r)
    (hreported : reported normalizers (.raw raw) = some (kind, p)) (id : ℕ) :
    (normalizeThen normalizers raw id).Follows (Does kind p r) ∧
      (normalizeThen normalizers raw id).pos = .before (.markProcessed id .processed) := by
  obtain ⟨normalize, hlookup, hreported⟩ := Option.bind_eq_some_iff.1 hreported
  unfold normalizeThen
  rw [hlookup]
  dsimp only
  split at hreported
  · rename_i p' hp'
    obtain ⟨kind', hkind, hpair⟩ := Option.map_eq_some_iff.1 hreported
    obtain ⟨rfl, rfl⟩ := Prod.mk.inj hpair
    have hprocess : processPayload p' = processNormalized kind' p' := by
      unfold TxType.parse at hkind
      unfold processPayload
      split_ifs at hkind ⊢ <;> cases hkind <;> rfl
    rw [hp']
    dsimp only
    rw [hprocess]
    exact ⟨fun a s => ⟨.marked, processNormalized_follows hr⟩, rfl⟩
  · cases hreported

theorem handleRawWebhook_follows (hr : p.result = some r)
    (hreported : reported normalizers (.raw raw) = some (kind, p)) :
    (handleRawWebhook normalizers raw).Follows (Does kind p r) := by
  intro a s
  dsimp only
  cases hreply : a.reply with
  | ok =>
    rw [if_pos (show Reply.ok.applied = true from rfl)]
    split_ifs with hstored
    · have hsame : s.insertRaw raw a.now = s := if_pos hstored
      rw [hsame]
      exact ⟨.alreadyStored hstored, trivial⟩
    · refine ⟨.inserted, fun b s' => ?_⟩
      dsimp only
      obtain ⟨hfollows, hpos⟩ := normalizeThen_follows hr hreported s.log.length
      split_ifs with hduplicate
      · exact ⟨.alreadyProcessed hduplicate.2, fun _ _ => ⟨.markedDuplicate, trivial⟩⟩
      · exact ⟨hpos ▸ .checked, hfollows⟩
  | error | lost =>
    have hfailed : Does kind p r (.insertRaw raw) a s _ _ := .insertFailed (by rw [hreply]; nofun)
    rw [hreply] at hfailed
    exact ⟨hfailed, trivial⟩

theorem handleEvent_follows {m : Message} (hr : p.result = some r)
    (hreported : reported normalizers m = some (kind, p)) :
    (handleEvent normalizers m).Follows (Does kind p r) := by
  cases m with
  | raw raw => exact handleRawWebhook_follows hr hreported
  | onRamp p' | offRamp p' =>
    cases hreported
    exact processNormalized_follows hr
end

/-! ## Marks -/

def Inbox.pending (s : Inbox) (kind : TxType) (p : ProviderWebhookPayload) : Prop :=
  ∃ tx, s.getProviderTransaction kind p = some tx ∧ isTerminal tx.status = false

/-- A raw message has no entry that is marked as processed. -/
def Inbox.fresh (s : Inbox) : Message → Prop
  | .raw raw => s.checkDuplicate raw = false
  | .onRamp _ | .offRamp _ => True

def Inbox.answered (s : Inbox) (r : IntentResult) : Prop := ∃ x ∈ s.verdicts, x.1 = r ∧ x.2 ≠ .refused

instance (s : Inbox) (kind : TxType) (p : ProviderWebhookPayload) : Decidable (s.pending kind p) :=
  decidable_of_iff ((s.getProviderTransaction kind p).any fun tx => !isTerminal tx.status) (by
    unfold Inbox.pending
    cases s.getProviderTransaction kind p <;> simp)

instance (s : Inbox) (m : Message) : Decidable (s.fresh m) := by cases m <;> unfold Inbox.fresh <;> infer_instance

instance (s : Inbox) (r : IntentResult) : Decidable (s.answered r) := inferInstanceAs (Decidable (∃ x ∈ s.verdicts, _))

/-- What the environment may do: the log has no entry of the same time, and once a mark is set neither the lookup nor
the engine fails. -/
def Fair (m : Message) (s : Inbox) : Step → Answer → Prop
  | .insertRaw raw, a => s.stored raw a.now = false
  | .lookup _ _, a => a.reply = .ok ∨ s.fresh m
  | .engine kind p r, a => (handleResult kind p r a s.transfer).2.1 ≠ .refused ∨ s.pending kind p ∧ s.fresh m
  | .checkDuplicate _, _ | .markProcessed _ _, _ | .update _ _ _, _ => True

instance (m : Message) (s : Inbox) (g : Step) (a : Answer) : Decidable (Fair m s g a) :=
  by cases g <;> unfold Fair <;> infer_instance

/-- What is known at each step, as long as the result has not been answered. -/
def Unanswered (m : Message) (kind : TxType) (p : ProviderWebhookPayload) (s : Inbox) : Pos Step Delivery → Prop
  | .before (.insertRaw raw) | .before (.checkDuplicate raw) => m = .raw raw ∧ s.pending kind p ∧ s.fresh m
  | .before (.markProcessed _ status) => status = .processed ∧ s.pending kind p
  | .before (.lookup _ _) | .before (.update _ _ _) => s.pending kind p
  | .before (.engine _ _ _) => True
  | .returned .nak => s.pending kind p ∧ s.fresh m
  | .returned .ack => False

section

variable {m : Message} {kind : TxType} {p : ProviderWebhookPayload} {r : IntentResult}

theorem served_identity (t : Transfer) (others : List Invocation) :
    (run served t others).id = t.id ∧ (run served t others).tenantID = t.tenantID := by
  refine run_invariant (P := fun t' : Transfer => t'.id = t.id ∧ t'.tenantID = t.tenantID) ?_ ⟨rfl, rfl⟩ others
  intro t' inv h
  unfold served
  split_ifs
  · exact h
  · split <;> exact h

theorem handleResult_cases (kind : TxType) (p : ProviderWebhookPayload) (r : IntentResult) (a : Answer) (t : Transfer) :
    handleResult kind p r a t = (run served t a.others, .refused, false) ∨
    (∃ b, handleResult kind p r a t = (run served t a.others, .late, b)) ∨
    ∃ st b, handleResult kind p r a t = ((run served t a.others).advance st, .accepted, b) := by
  unfold handleResult
  by_cases hreply : a.reply = .error
  · exact .inl (if_pos hreply)
  rw [if_neg hreply]
  by_cases hfound : p.transferID = (run served t a.others).id ∧ p.tenantID = (run served t a.others).tenantID
  · rw [if_neg (not_not.2 hfound)]
    split
    · exact .inr (.inr ⟨_, _, rfl⟩)
    · exact .inr (.inl ⟨_, rfl⟩)
    · split_ifs
      · exact .inr (.inl ⟨_, rfl⟩)
      · exact .inl rfl
  · exact .inl (if_pos hfound)

theorem handleResult_identity (kind : TxType) (p : ProviderWebhookPayload) (r : IntentResult) (a : Answer) (t : Transfer) :
    (handleResult kind p r a t).1.id = t.id ∧ (handleResult kind p r a t).1.tenantID = t.tenantID := by
  have hserved := served_identity t a.others
  rcases handleResult_cases kind p r a t with h | ⟨b, h⟩ | ⟨st, b, h⟩
  · rwa [h]
  · rwa [h]
  · rw [h]
    exact hserved

theorem pending_answer (h : s.pending kind p) : (s.answer kind p r a).pending kind p := by
  obtain ⟨tx, hget, hstatus⟩ := h
  refine ⟨tx, ?_, hstatus⟩
  obtain ⟨hid, htenant⟩ := handleResult_identity kind p r a s.transfer
  unfold Inbox.getProviderTransaction Inbox.answer at *
  rw [hid, htenant]
  exact hget

theorem fresh_insertRaw {now : Time} (h : s.checkDuplicate raw = false) :
    (s.insertRaw raw now).checkDuplicate raw = false := by
  unfold Inbox.insertRaw
  split_ifs
  · exact h
  · unfold Inbox.checkDuplicate at h ⊢
    rw [List.any_append, h]
    simp

theorem pending_insertRaw {now : Time} (h : s.pending kind p) : (s.insertRaw raw now).pending kind p := by
  unfold Inbox.insertRaw
  split_ifs <;> exact h

theorem pending_updatable (h : s.pending kind p) : s.updatable kind = true := by
  obtain ⟨tx, hget, hstatus⟩ := h
  unfold Inbox.getProviderTransaction at hget
  split_ifs at hget
  unfold Inbox.updatable ProviderTx.terminal
  rw [hget]
  unfold isTerminal at hstatus
  simp only [Bool.or_eq_false_iff] at hstatus
  simp [hstatus.1.1, hstatus.1.2]

variable {q : Pos Step Delivery}

theorem does_verdicts {g : Step} {s' : Inbox} (h : Does kind p r g a s s' q) : s.verdicts ⊆ s'.verdicts := by
  cases h with
  | insertFailed | inserted =>
    unfold Inbox.insertRaw
    split_ifs <;> exact List.Subset.refl _
  | updated =>
    unfold Inbox.updateProviderTransaction
    split_ifs <;> exact List.Subset.refl _
  | markedDuplicate | marked => split_ifs <;> exact List.Subset.refl _
  | alreadyStored | alreadyProcessed | checked | lookupFailed | nothingPending | found | conflict => exact List.Subset.refl _
  | answered => exact List.subset_append_left _ _

theorem unanswered_step {g : Step} {s' : Inbox} (h : Unanswered m kind p s (.before g))
    (hfair : Fair m s g a) (hdoes : Does kind p r g a s s' q) : s'.answered r ∨ Unanswered m kind p s' q := by
  cases hdoes with
  | @insertFailed raw _ _ hreply =>
    obtain ⟨rfl, hpending, hfresh⟩ := h
    right
    split_ifs
    · exact ⟨pending_insertRaw hpending, fresh_insertRaw hfresh⟩
    · exact ⟨hpending, hfresh⟩
  | alreadyStored hstored =>
    rw [show s.stored _ _ = false from hfair] at hstored
    cases hstored
  | inserted =>
    obtain ⟨rfl, hpending, hfresh⟩ := h
    exact .inr ⟨rfl, pending_insertRaw hpending, fresh_insertRaw hfresh⟩
  | alreadyProcessed hprocessed =>
    obtain ⟨rfl, -, hfresh⟩ := h
    rw [show s.checkDuplicate _ = false from hfresh] at hprocessed
    cases hprocessed
  | checked => exact .inr ⟨rfl, h.2.1⟩
  | markedDuplicate => cases h.1
  | marked =>
    right
    split_ifs <;> exact h.2
  | lookupFailed hreply => exact .inr ⟨h, hfair.resolve_left hreply⟩
  | nothingPending hnone =>
    obtain ⟨tx, hget, hstatus⟩ := h
    rw [hnone tx hget] at hstatus
    cases hstatus
  | found => exact .inr h
  | conflict hupdatable =>
    rw [pending_updatable h] at hupdatable
    cases hupdatable
  | updated => exact .inr trivial
  | answered =>
    rcases handleResult_cases kind p r a s.transfer with hresult | ⟨b, hresult⟩ | ⟨st, b, hresult⟩
    · -- the engine refuses, so no mark can have been set
      right
      rw [hresult]
      obtain ⟨hpending, hfresh⟩ := hfair.resolve_left (by rw [hresult]; simp)
      exact ⟨pending_answer hpending, by cases m <;> exact hfresh⟩
    · exact .inl ⟨(r, .late), by simp [Inbox.answer, hresult], rfl, by simp⟩
    · exact .inl ⟨(r, .accepted), by simp [Inbox.answer, hresult], rfl, by simp⟩

/-- **No result is swallowed** as long as the environment is fair: whenever a delivery of a message
that reports a final status of a known provider transaction returns nil, the engine has answered. -/
theorem fair_answered {normalizers : Normalizers} (hreported : reported normalizers m = some (kind, p)) (hr : p.result = some r)
    {s : Inbox} (hpending : s.pending kind p) (hfresh : s.fresh m) (deliveries : List (List Answer))
    (hfair : (handleEvent normalizers m).RerunThroughout (Fair m) s deliveries) :
    ∀ x ∈ (handleEvent normalizers m).rerun s deliveries, x.2 = some .ack → x.1.answered r := by
  intro x hx hack
  have hstart : ∀ s : Inbox, s.pending kind p → s.fresh m → Unanswered m kind p s (handleEvent normalizers m).pos := by
    intro s hpending hfresh
    cases m with
    | raw raw => exact ⟨rfl, hpending, hfresh⟩
    | onRamp | offRamp => exact hpending
  let K : Inbox → Pos Step Delivery → Prop := fun s q => s.answered r ∨ Unanswered m kind p s q
  have hstep : ∀ g a s s' q, K s (.before g) → Fair m s g a → Does kind p r g a s s' q → K s' q := by
    rintro g a s s' q (⟨v, hv, hvr⟩ | hK) hok hdoes
    · exact .inl ⟨v, does_verdicts hdoes hv, hvr⟩
    · exact unanswered_step hK hok hdoes
  have hagain : ∀ s d, K s (.returned d) → K s (handleEvent normalizers m).pos := by
    rintro s d (hK | hK)
    · exact .inl hK
    · cases d with
      | ack => exact hK.elim
      | nak => exact .inr (hstart s hK.1 hK.2)
  obtain ⟨d, hd, hK⟩ := rerun_throughout (handleEvent_follows hr hreported) hstep hagain
    (.inr (hstart s hpending hfresh)) hfair x hx
  rw [hack] at hd
  cases hd
  exact hK.resolve_right id

end

def sampleInbox : Inbox where
  rows := fun kind => if kind = .onRamp then some ⟨"ext-1", "pending", ""⟩ else none
  log := []
  transfer := { sampleRow 7 with status := .onRamping, version := 2 }
  verdicts := []

def sampleWebhook (status : String) : ProviderWebhookPayload := ⟨7, 1, "ramp", "ext-1", status, "0x1", "", "onramp"⟩

def sampleRaw : RawWebhookPayload := ⟨"ramp", "body", "key-1"⟩

def sampleNormalizers : Normalizers := fun _ => some fun _ _ => .ok (some (sampleWebhook "completed"))

def reachable : Answer := { lookups := ⟨fun _ _ => none, fun _ => some "acme"⟩ }

def unmarkedRetry : List (List Answer) :=
  [[{ now := 1 }, {}, { reply := .error }, {}, { reply := .error }, { reply := .error }],
    [{ now := 2 }, {}, {}, {}, {}, reachable]]

theorem unmarked_answered :
    (handleEvent sampleNormalizers (.raw sampleRaw)).RerunThroughout (Fair (.raw sampleRaw)) sampleInbox unmarkedRetry ∧
    ∀ x ∈ (handleEvent sampleNormalizers (.raw sampleRaw)).rerun sampleInbox unmarkedRetry, x.2 = some .ack →
      x.1.answered ⟨true, "0x1", ""⟩ :=
  have hfair : (handleEvent sampleNormalizers (.raw sampleRaw)).RerunThroughout
      (Fair (.raw sampleRaw)) sampleInbox unmarkedRetry := by
    decide +kernel
  ⟨hfair, fair_answered rfl rfl (by decide +kernel) (by decide +kernel) unmarkedRetry hfair⟩

/-- **Results are swallowed**: a normalized webhook after an error of the engine, and a raw one
after an error of the lookup. -/
theorem result_swallowed :
    (∃ x ∈ (handleEvent sampleNormalizers (.onRamp (sampleWebhook "completed"))).rerun sampleInbox
      [[{}, {}, { reply := .error }], [{}]],
      x.2 = some .ack ∧ ¬ x.1.answered ⟨true, "0x1", ""⟩) ∧
    ∃ x ∈ (handleEvent sampleNormalizers (.raw sampleRaw)).rerun sampleInbox
        [[{ now := 1 }, {}, {}, { reply := .error }], [{ now := 2 }, {}, {}]],
      x.2 = some .ack ∧ x.1.verdicts = [] := by
  decide +kernel

end Settla.Node.Inbound
