import Settla.Proof.Reversal

/-!
# Which entries the ledger accepts

The completion entry is checked by the engine itself; the on-ramp posting and the reversals are not, and
mix the stablecoin, the source currency and a fee that may be zero.
-/

namespace Settla.Node

open Lib Settla.Core List

/-! ## `ValidateEntries` -/

theorem validateLines_three {l₁ l₂ l₃ : EntryLine} (hids : [l₁.id, l₂.id, l₃.id].Nodup)
    (hnil : ∀ l ∈ [l₁, l₂, l₃], l.id ≠ UUID.nil)
    (hkeys : [l₁.accountEntryKey, l₂.accountEntryKey, l₃.accountEntryKey].Nodup) :
    validateLines [] [] [l₁, l₂, l₃] = .ok () ↔ 0 < l₁.amount ∧ 0 < l₂.amount ∧ 0 < l₃.amount := by
  simp only [nodup_cons, mem_cons, not_mem_nil, or_false, not_or] at hids hkeys
  obtain ⟨⟨i₁₂, i₁₃⟩, i₂₃, -⟩ := hids
  obtain ⟨⟨k₁₂, k₁₃⟩, k₂₃, -⟩ := hkeys
  have n₁ := hnil l₁ (by simp)
  have n₂ := hnil l₂ (by simp)
  have n₃ := hnil l₃ (by simp)
  simp only [validateLines, check_eq_ok, n₁, n₂, n₃, not_mem_nil, mem_cons, Ne.symm i₁₂, Ne.symm i₁₃,
    Ne.symm i₂₃, Ne.symm k₁₂, Ne.symm k₁₃, Ne.symm k₂₃, not_not, ne_eq, not_false_eq_true, if_true, and_false, or_false,
    and_true, true_and]

theorem sumLines_cons (type : EntryType) (currency : Currency) (l : EntryLine) (ls : List EntryLine) :
    sumLines type currency (l :: ls) =
      (if l.entryType = type ∧ l.currency = currency then l.amount else 0) + sumLines type currency ls := by
  unfold sumLines
  split <;> simp_all

theorem validateBalance_ok (ls : List EntryLine) :
    validateBalance ls = .ok () ↔ ∀ l ∈ ls, sumLines .debit l.currency ls = sumLines .credit l.currency ls := by
  unfold validateBalance
  split
  · rename_i l hl
    have hne := List.find?_some hl
    simp only [reduceCtorEq, false_iff, not_forall]
    exact ⟨l, List.mem_of_find?_eq_some hl, by simpa using hne⟩
  · rename_i hl
    simpa using hl

/-! ## Postings -/

/-- The posting is in one currency, has no zero line and adds up. -/
structure Balanced (t : Transfer) : Prop where
  currency : t.stableCoin = t.sourceCurrency
  stable_pos : 0 < t.stableAmount
  fee_pos : 0 < t.fees.onRampFee
  total : t.stableAmount + t.fees.onRampFee = t.sourceAmount

section

variable {t : Transfer} {slug d₁ d₂ d₃ : String}

theorem posting_keys : ((clearingLines t slug .debit d₁ d₂ d₃).map Posting.accountEntryKey).Nodup := by
  have h₁₂ : cryptoAccount t ++ ":" ++ "DEBIT" ≠ "expenses:provider:onramp" ++ ":" ++ "DEBIT" :=
    ne_of_head (by simp [cryptoAccount])
  have h₁₃ : cryptoAccount t ++ ":" ++ "DEBIT" ≠ clearingAccount t slug ++ ":" ++ "CREDIT" :=
    ne_of_head (by simp [cryptoAccount, clearingAccount, tenantAccountCode])
  have h₂₃ : "expenses:provider:onramp" ++ ":" ++ "DEBIT" ≠ clearingAccount t slug ++ ":" ++ "CREDIT" :=
    ne_of_head (by simp [clearingAccount, tenantAccountCode])
  simp only [clearingLines, map_cons, map_nil, Posting.accountEntryKey, EntryType.swap, EntryType.string,
    nodup_cons, mem_cons, not_mem_nil, or_false, not_or]
  exact ⟨⟨h₁₂, h₁₃⟩, h₂₃, not_false, nodup_nil⟩

theorem validateBalance_posting (hpos : 0 < t.stableAmount) :
    validateBalance (withIDs (clearingLines t slug .debit d₁ d₂ d₃)) = .ok () ↔
      t.stableCoin = t.sourceCurrency ∧ t.stableAmount + t.fees.onRampFee = t.sourceAmount := by
  rw [validateBalance_ok]
  simp only [withIDs, clearingLines, EntryType.swap, zipIdx_cons, zipIdx_nil, map_cons, map_nil,
    forall_mem_cons, sumLines_cons]
  simp [sumLines]
  constructor
  · rintro ⟨hcoin, hsource⟩
    -- in two currencies the stablecoin has debits only
    by_cases heq : t.stableCoin = t.sourceCurrency
    · simp [heq] at hsource
      exact ⟨heq, hsource⟩
    · simp [Ne.symm heq] at hcoin
      exact absurd hcoin hpos.ne'
  · rintro ⟨heq, hsum⟩
    simp [heq, hsum]

/-- **When a posting passes `ValidateEntries`.** -/
theorem shaped_valid_iff {e : JournalEntry} (h : Shaped t slug e) : validateEntries e.lines = .ok () ↔ Balanced t := by
  obtain ⟨d₁, d₂, d₃, h⟩ := h
  rw [h]
  have hlines : validateLines [] [] (withIDs (clearingLines t slug .debit d₁ d₂ d₃)) = .ok () ↔
      0 < t.stableAmount ∧ 0 < t.fees.onRampFee ∧ 0 < t.sourceAmount :=
    validateLines_three (show ([1, 2, 3] : List UUID).Nodup by decide) (by simp; decide) posting_keys
  have hlen : ¬ (withIDs (clearingLines t slug .debit d₁ d₂ d₃)).length < 2 := by
    simp [withIDs, clearingLines]
  simp only [validateEntries, throw_eq, error_bind, check_eq_ok, bind_eq_ok, hlen, not_false_eq_true, true_and]
  constructor
  · rintro ⟨_, hl, hb⟩
    obtain ⟨hs, hf, -⟩ := hlines.1 hl
    obtain ⟨hc, hsum⟩ := (validateBalance_posting hs).1 hb
    exact ⟨hc, hs, hf, hsum⟩
  · intro hbal
    have hsource : 0 < t.sourceAmount := by
      have := hbal.total; have := hbal.stable_pos; have := hbal.fee_pos; linarith
    exact ⟨(), hlines.2 ⟨hbal.stable_pos, hbal.fee_pos, hsource⟩,
      (validateBalance_posting hbal.stable_pos).2 ⟨hbal.currency, hbal.total⟩⟩

end

/-! ## Runs -/

/-- The entry of an intent is empty or passes `ValidateEntries`. -/
def Postable (i : Intent) : Prop :=
  ∀ e, journalEntry i = some e → e.lines ≠ [] → validateEntries e.lines = .ok ()

section

variable {t : Transfer} {s : Store} {inv : Invocation} {st : TransferStatus}

theorem transition_postable (hbal : Balanced t) {st' : TransferStatus} {v : ℕ} {intents : List Intent}
    {ev : Option EventType} (h : Transition (atStatus t st v) st' intents ev) : ∀ i ∈ intents, Postable i := by
  intro i hi e he hne
  by_cases hst' : st' = .completed
  · subst hst'
    cases h with
    | complete _ _ hval =>
      -- the engine has run the same check on the same lines
      simp [consumeIntent, webhookIntent] at hi
      rcases hi with rfl | rfl | rfl
      · cases he
      · cases he; exact hval
      · cases he
  · rcases transition_entries h hst' e (mem_filterMap.2 ⟨i, hi, he⟩) with ⟨slug, hshaped⟩ | ⟨hnil, -⟩
    -- posting or reversal, the lines are the same three
    · exact (shaped_valid_iff hshaped).2 hbal
    · exact absurd hnil hne

def AllPostable (t : Transfer) (s : Store) : Prop :=
  (∃ st v, s.transfers t.id = some (atStatus t st v)) ∧ ∀ i ∈ intentsOf s.outbox, Postable i

theorem after_postable (hbal : Balanced t) (h : AllPostable t s) : AllPostable t (s.after t.id inv) := by
  obtain ⟨⟨st, v, hrow⟩, hall⟩ := h
  unfold Store.after
  rcases call_cases s t.id inv with hsame | ⟨t₁, st', intents, ev, ht, -, -, -, htr, hnew⟩
  · rw [hsame]; exact ⟨⟨st, v, hrow⟩, hall⟩
  rw [hrow] at ht
  cases ht
  rw [hnew]
  refine ⟨⟨st', v + 1, by simp [atStatus, Transfer.advance]⟩, ?_⟩
  intro i hi
  rw [intentsOf_append, intentsOf_outboxEntries] at hi
  rcases mem_append.1 hi with hi | hi
  · exact hall i hi
  · exact transition_postable hbal htr i hi

theorem posts_shaped {v : ℕ} (hrow : s.transfers t.id = some (atStatus t st v))
    (h : Posts (atStatus t st v) inv) : ∃ e ∈ entriesOf (s.after t.id inv), ∃ slug, Shaped t slug e := by
  obtain ⟨slug, st', intents, ev, hplan, hcases⟩ := plan_posts h
  unfold Store.after
  rw [call_of_plan hrow h.1 hplan, entriesOf_append]
  rcases hcases with ⟨-, hnew⟩ | ⟨-, -, -, hnew⟩
  all_goals
    rw [hnew]
    exact ⟨_, mem_append_right _ mem_cons_self, slug, _, _, _, rfl⟩

theorem after_row (inv : Invocation) {t' : Transfer} (hrow : s.transfers t.id = some t') (htenant : t'.tenantID = inv.tenantID)
    (hplan : ∃ es, inv.call.plan inv.lookups t' = .transition st es) :
    (s.after t.id inv).transfers t.id = some (t'.advance st) := by
  obtain ⟨es, hplan⟩ := hplan
  rw [Store.after, call_of_plan hrow htenant hplan]
  simp

end

section

variable {tenantID : UUID} {t : Transfer} {s : Store}

def failAndRefund (tenantID : UUID) : List Invocation :=
  [callAs tenantID (.failTransfer "" ""), callAs tenantID .initiateRefund]

def onRampSucceeds (tenantID : UUID) : List Invocation :=
  [callAs tenantID .fundTransfer, callAs tenantID .initiateOnRamp, callAs tenantID (.handleOnRampResult ⟨true, "", ""⟩)]

theorem failAndRefund_posts (hnew : NewRow tenantID t) (hrow : s.transfers t.id = some t) (hpos : 0 < t.stableAmount) :
    ∃ e ∈ entriesOf (run (Store.after t.id) s (failAndRefund tenantID)), ∃ slug, Shaped t slug e := by
  have hfail : ∃ es, (EngineCall.failTransfer "" "").plan (callAs tenantID .fundTransfer).lookups t
      = .transition .failed es := by
    simp [EngineCall.plan, failTransfer, Transfer.canTransitionTo, hnew.status, validTransitions]
  have h₁ : (s.after t.id (callAs tenantID (.failTransfer "" ""))).transfers t.id
      = some (atStatus t .failed (t.version + 1)) :=
    after_row (callAs tenantID (.failTransfer "" "")) hrow hnew.tenant hfail
  exact posts_shaped h₁ ⟨hnew.tenant, rfl, rfl, hpos⟩

theorem onRampSucceeds_posts (hnew : NewRow tenantID t) (hrow : s.transfers t.id = some t)
    (hnet : 0 < t.sourceAmount - t.fees.onRampFee) :
    ∃ e ∈ entriesOf (run (Store.after t.id) s (onRampSucceeds tenantID)), ∃ slug, Shaped t slug e := by
  have hfund : ∃ es, EngineCall.fundTransfer.plan (callAs tenantID .fundTransfer).lookups t
      = .transition .funded es := by
    simp [EngineCall.plan, fundTransfer, hnew.status]
  have h₁ : (s.after t.id (callAs tenantID .fundTransfer)).transfers t.id
      = some (atStatus t .funded (t.version + 1)) :=
    after_row (callAs tenantID .fundTransfer) hrow hnew.tenant hfund
  have honRamp : ∃ es, EngineCall.initiateOnRamp.plan (callAs tenantID .fundTransfer).lookups
      (atStatus t .funded (t.version + 1)) = .transition .onRamping es := by
    simp [EngineCall.plan, initiateOnRamp, atStatus]
  have h₂ : ((s.after t.id (callAs tenantID .fundTransfer)).after t.id (callAs tenantID .initiateOnRamp)).transfers t.id
      = some (atStatus t .onRamping (t.version + 1 + 1)) :=
    after_row (callAs tenantID .initiateOnRamp) h₁ hnew.tenant honRamp
  exact posts_shaped h₂ ⟨hnew.tenant, rfl, rfl, rfl, hnet⟩

theorem shaped_postable (h : ∀ i ∈ intentsOf s.outbox, Postable i)
    (hshaped : ∃ e ∈ entriesOf s, ∃ slug, Shaped t slug e) : Balanced t := by
  obtain ⟨e, he, slug, hs⟩ := hshaped
  obtain ⟨i, hi, hie⟩ := mem_filterMap.1 he
  refine (shaped_valid_iff hs).1 (h i hi e hie ?_)
  obtain ⟨d₁, d₂, d₃, hlines⟩ := hs
  rw [hlines]
  simp [withIDs, clearingLines]

end

/-- Without a stablecoin amount, and with a fee that takes the whole source amount, no
call posts. -/
theorem never_posts {t : Transfer} {s : Store} {inv : Invocation} (hpos : ¬ 0 < t.stableAmount)
    (hfee : t.sourceAmount ≤ t.fees.onRampFee) (h : Clean t s) : NoPosting t.id s inv := by
  obtain ⟨st, v, hrow, -⟩ := h
  rintro t' ht' ⟨-, -, hcall⟩
  rw [hrow] at ht'
  cases ht'
  split at hcall
  · have hnet : 0 < t.sourceAmount - t.fees.onRampFee := hcall.2.2
    linarith
  · exact hpos hcall.2
  · exact hcall

/-- **When every journal entry can be posted.** All entries of all runs of a transfer pass
`ValidateEntries` exactly if its posting balances, or if it can never be posted: no stablecoin
amount, and a fee that takes the whole source amount. -/
theorem postable_iff {e : CreateEnv} {tenantID : UUID} {req : CreateTransferRequest} {t : Transfer}
    {entries : List OutboxEntry} (hcreate : createTransfer e tenantID req = .ok (.row t entries)) :
    (∀ calls : List Invocation, ∀ i ∈ intentsOf (run (Store.after t.id) (Store.holding t entries) calls).outbox,
      Postable i) ↔
    Balanced t ∨ ¬ 0 < t.stableAmount ∧ t.sourceAmount ≤ t.fees.onRampFee := by
  obtain ⟨hnew, -, hentries⟩ := createTransfer_row hcreate
  have hrow : (Store.holding t entries).transfers t.id = some t := by simp [Store.holding]
  constructor
  · intro h
    by_cases hpos : 0 < t.stableAmount
    · exact .inl (shaped_postable (h _) (failAndRefund_posts hnew hrow hpos))
    by_cases hnet : 0 < t.sourceAmount - t.fees.onRampFee
    · exact .inl (shaped_postable (h _) (onRampSucceeds_posts hnew hrow hnet))
    · exact .inr ⟨hpos, by linarith⟩
  · rintro (hbal | ⟨hpos, hfee⟩) calls i hi
    · have hstart : AllPostable t (Store.holding t entries) := by
        refine ⟨⟨.created, 0, holding_created hnew entries⟩, ?_⟩
        rw [hentries]
        intro j hj
        cases hj
      exact (run_invariant (fun _ _ hs => after_postable hbal hs) hstart calls).2 i hi
    · -- no call can post, so every entry stays empty
      have hclean : Clean t (run (Store.after t.id) (Store.holding t entries) calls) :=
        run_invariant (fun s inv hs => clean_step hs (never_posts hpos hfee hs)) (created_clean hcreate) calls
      obtain ⟨-, -, -, -, -, hempty⟩ := hclean
      intro x hx hne
      exact absurd (hempty x (mem_filterMap.2 ⟨i, hi, hx⟩)).1 hne

def coinRequest : CreateTransferRequest := { sampleRequest with sourceCurrency := "USDT" }

def coinEnv : CreateEnv :=
  { sampleEnv 7 with
    routerQuote := fun _ _ => some { sampleQuote with sourceCurrency := "USDT", stableAmount := 995 } }

def coinRow : Transfer := { sampleRow 7 with sourceCurrency := "USDT", stableAmount := 995 }

theorem postable_coin :
    createTransfer coinEnv 1 coinRequest = .ok (.row coinRow (sampleEntries 7)) ∧
    ∀ calls, ∀ i ∈ intentsOf (run (Store.after 7) (Store.holding coinRow (sampleEntries 7)) calls).outbox, Postable i := by
  have hcreate : createTransfer coinEnv 1 coinRequest = .ok (.row coinRow (sampleEntries 7)) := by decide +kernel
  have hbal : Balanced coinRow := ⟨rfl, by decide +kernel, by decide +kernel, by decide +kernel⟩
  exact ⟨hcreate, (postable_iff hcreate).2 (.inl hbal)⟩

/-- **The on-ramp of an ordinary transfer cannot be posted**: the USDT line has no counterpart. -/
theorem sterling_not_postable :
    let s := run (Store.after 7) (Store.holding (sampleRow 7) (sampleEntries 7)) (onRampSucceeds 1)
    createTransfer (sampleEnv 7) 1 sampleRequest = .ok (.row (sampleRow 7) (sampleEntries 7)) ∧
    (entriesOf s).map (fun e => validateEntries e.lines) = [.error (.unbalanced "USDT" 1250 0)] :=
  ⟨sample_created, by decide +kernel⟩

end Settla.Node
