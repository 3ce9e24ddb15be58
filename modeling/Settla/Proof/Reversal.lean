import Settla.Node.LedgerWorker
import Settla.Proof.CreateTransfer
import Settla.Proof.Engine

/-!
# What the ledger keeps of a transfer that did not complete

The reversal lines of the engine are already on the other side, and `handleReverse` swaps them once more.
So every entry for such a transfer is empty or another on-ramp posting (`Shaped`).
-/

namespace Settla.Node

open Lib Settla.Core List

/-! ## Entries -/

def entriesOf (s : Store) : List JournalEntry := (intentsOf s.outbox).filterMap journalEntry

variable (t : Transfer)

def Shaped (slug : String) (e : JournalEntry) : Prop :=
  ∃ d₁ d₂ d₃, e.lines = withIDs (clearingLines t slug .debit d₁ d₂ d₃)

def onRampKey : String := "onramp:" ++ t.id.string

def reverseKey : String := "reverse:" ++ t.id.string

variable {e : JournalEntry}

theorem ne_of_head {a b : String} (h : a.toList.head? ≠ b.toList.head?) : a ≠ b :=
  fun heq => h (congrArg (fun s : String => s.toList.head?) heq)

theorem clearing_ne_crypto (slug : String) : clearingAccount t slug ≠ cryptoAccount t :=
  ne_of_head (by simp [clearingAccount, cryptoAccount, tenantAccountCode])

theorem shaped_crypto {t : Transfer} {slug : String} (h : Shaped t slug e) :
    e.effect (cryptoAccount t) t.stableCoin = -t.stableAmount := by
  obtain ⟨d₁, d₂, d₃, h⟩ := h
  rw [JournalEntry.effect, h]
  have hfee : "expenses:provider:onramp" ≠ cryptoAccount t := ne_of_head (by simp [cryptoAccount])
  simp [withIDs, clearingLines, lineEffect, clearing_ne_crypto, hfee]

theorem shaped_clearing {t : Transfer} {slug : String} (h : Shaped t slug e) (slug' : String) :
    e.effect (clearingAccount t slug') t.sourceCurrency =
      if clearingAccount t slug = clearingAccount t slug' then t.sourceAmount else 0 := by
  obtain ⟨d₁, d₂, d₃, h⟩ := h
  rw [JournalEntry.effect, h]
  have hfee : "expenses:provider:onramp" ≠ clearingAccount t slug' := ne_of_head (by simp [clearingAccount, tenantAccountCode])
  simp [withIDs, clearingLines, lineEffect, EntryType.swap, hfee, (clearing_ne_crypto t slug').symm]

theorem empty_effect (h : e.lines = []) (account : String) (currency : Currency) :
    e.effect account currency = 0 := by
  simp [JournalEntry.effect, h]

/-! ## The entries of one step -/

def atStatus (st : TransferStatus) (v : ℕ) : Transfer := { t with status := st, version := v }

section

variable {t : Transfer} {st st' : TransferStatus} {v : ℕ} {intents : List Intent} {ev : Option EventType}

/-- An entry of a transfer that does not complete: a posting, or an empty reversal. -/
def PostedOrEmpty (t : Transfer) (e : JournalEntry) : Prop :=
  (∃ slug, Shaped t slug e) ∨ e.lines = [] ∧ e.idempotencyKey = reverseKey t

/-- **What a step asks of the ledger.** The double swap makes a reversal a posting. -/
theorem transition_entries (h : Transition (atStatus t st v) st' intents ev) (hst : st' ≠ .completed) :
    ∀ e ∈ intents.filterMap journalEntry, PostedOrEmpty t e := by
  intro e he
  cases h with
  | complete => exact absurd rfl hst
  -- the lines of the three reversals are swapped twice, so all four are postings
  | @onRampDone slug _ _ _ | @refundPosted slug _ _ | @settlementFailed slug _ _ | @offRampFailed slug _ _ =>
    simp only [releaseIntent, webhookIntent, filterMap_cons, filterMap_nil, journalEntry,
      mem_singleton] at he
    rw [he]
    exact .inl ⟨slug, _, _, _, rfl⟩
  | refundEmpty =>
    simp only [releaseIntent, filterMap_cons, filterMap_nil, journalEntry, mem_singleton] at he
    exact .inr (he ▸ ⟨rfl, rfl⟩)
  | _ => simp [reserveIntent, releaseIntent, webhookIntent, journalEntry] at he

end

/-! ## The steps that post -/

/-- The calls that write a posting: a successful on-ramp result whose amount covers the fee, and a
refund of a failed transfer with a stablecoin amount. -/
def Posts (inv : Invocation) : Prop :=
  t.tenantID = inv.tenantID ∧ (inv.lookups.getTenant t.tenantID).isSome = true ∧
  match inv.call with
  | .handleOnRampResult r => r.success = true ∧ t.status = .onRamping ∧ 0 < t.sourceAmount - t.fees.onRampFee
  | .initiateRefund => t.status = .failed ∧ 0 < t.stableAmount
  | _ => False

variable {es : List OutboxEntry} {tenantID : UUID}

theorem posts_of_settling {l : Lookups} {t : Transfer} {c : EngineCall} (h : c.plan l t = .transition .settling es) :
    ∃ r, c = .handleOnRampResult r ∧ r.success = true ∧ (l.getTenant t.tenantID).isSome = true := by
  have hmove := (plan_sound l t c _ _ h).1
  cases c with
  | handleOnRampResult r =>
    refine ⟨r, rfl, ?_⟩
    simp only [EngineCall.plan, handleOnRampResult] at h
    split at h
    -- a late result is skipped or refused
    · unfold lateResult at h; split at h <;> cases h
    split at h
    · rename_i hr
      refine ⟨hr, ?_⟩
      split at h
      · cases h
      · rename_i slug hslug; rw [hslug]; rfl
    · cases h
  | _ => simp [EngineCall.moves, failMoves] at hmove

theorem posts_of_refundPosted {l : Lookups} {t : Transfer} {c : EngineCall} {st : TransferStatus}
    (h : c.plan l t = .transition st es) (hmove : (.failed, .refunding) ∈ c.moves)
    (hst : t.status = .failed) (hpos : 0 < t.stableAmount) :
    c = .initiateRefund ∧ (l.getTenant t.tenantID).isSome = true := by
  cases c with
  | initiateRefund =>
    refine ⟨rfl, ?_⟩
    simp only [EngineCall.plan, initiateRefund, hst, hpos] at h
    cases hl : l.getTenant t.tenantID with
    | none => simp [hl, Transfer.canTransitionTo, validTransitions, hst] at h
    | some slug => rfl
  | _ => simp [EngineCall.moves, failMoves] at hmove

theorem plan_posts {t : Transfer} {inv : Invocation} (h : Posts t inv) :
    ∃ slug st intents ev, inv.call.plan inv.lookups t = .transition st (outboxEntries t intents ev) ∧
      ((0 < t.sourceAmount - t.fees.onRampFee ∧ intents.filterMap journalEntry =
          [handlePost (ledgerPayload t "onramp" ("On-ramp transfer " ++ t.id.string) "transfer" (onRampLines t slug))]) ∨
        (t.status = .failed ∧ st = .refunding ∧ 0 < t.stableAmount ∧ intents.filterMap journalEntry =
          [handleReverse (ledgerPayload t "refund" ("Refund for transfer " ++ t.id.string) "reversal"
            (refundLines t slug))])) := by
  obtain ⟨-, hslug, h⟩ := h
  obtain ⟨slug, hslug⟩ := Option.isSome_iff_exists.1 hslug
  split at h
  · rename_i r hcall
    obtain ⟨hr, hst, hnet⟩ := h
    have hplan : inv.call.plan inv.lookups t = .transition .settling (outboxEntries t
        [.ledgerPost (ledgerPayload t "onramp" ("On-ramp transfer " ++ t.id.string) "transfer" (onRampLines t slug)),
          .blockchainSend ⟨t.id, t.tenantID, t.chain, t.stableCoin, t.stableAmount, "settlement:" ++ t.id.string⟩]
        (some .onRampCompleted)) := by
      rw [hcall]
      simp only [EngineCall.plan, handleOnRampResult, hst, ne_eq, not_true_eq_false, if_false, hr, if_true, hslug,
        hnet]
    exact ⟨slug, _, _, _, hplan, .inl ⟨hnet, rfl⟩⟩
  · rename_i hcall
    obtain ⟨hst, hpos⟩ := h
    have hplan : inv.call.plan inv.lookups t = .transition .refunding (outboxEntries t
        [.ledgerReverse (ledgerPayload t "refund" ("Refund for transfer " ++ t.id.string) "reversal"
          (refundLines t slug)), releaseIntent t "refund"] (some .refundInitiated)) := by
      rw [hcall]
      simp [EngineCall.plan, initiateRefund, hst, hslug, hpos, Transfer.canTransitionTo, validTransitions]
    exact ⟨slug, _, _, _, hplan, .inr ⟨hst, rfl, hpos, rfl⟩⟩
  · exact h.elim

/-! ## Runs of one transfer -/

def unsettled : List TransferStatus := [.created, .funded, .onRamping, .failed, .refunding, .refunded]

/-- Nothing but empty reversals, and these only once the transfer is being refunded. -/
def Clean (s : Store) : Prop :=
  ∃ st v, s.transfers t.id = some (atStatus t st v) ∧ st ∈ unsettled ∧
    (entriesOf s = [] ∨ st = .refunding ∨ st = .refunded) ∧
    ∀ e ∈ entriesOf s, e.lines = [] ∧ e.idempotencyKey = reverseKey t

/-- A posting that nothing can cancel: the one of the on-ramp, or a lone refund. -/
structure Posted (t : Transfer) (st : TransferStatus) (es : List JournalEntry) : Prop where
  entries : ∀ e ∈ es, PostedOrEmpty t e
  posting : (0 < t.sourceAmount ∧ ∃ e ∈ es, e.idempotencyKey = onRampKey t) ∨
    (0 < t.stableAmount ∧ (st = .refunding ∨ st = .refunded) ∧ es ≠ [] ∧ ∀ e ∈ es, ∃ slug, Shaped t slug e)

/-- There is a posting, unless the transfer has completed. -/
def Dirty (s : Store) : Prop :=
  ∃ st v, s.transfers t.id = some (atStatus t st v) ∧ (st = .completed ∨ Posted t st (entriesOf s))

theorem entriesOf_append (transfers : UUID → Option Transfer) (outbox : List OutboxEntry) (t : Transfer)
    (intents : List Intent) (ev : Option EventType) :
    entriesOf ⟨transfers, outbox ++ outboxEntries t intents ev⟩ =
      (intentsOf outbox).filterMap journalEntry ++ intents.filterMap journalEntry := by
  rw [entriesOf, intentsOf_append, intentsOf_outboxEntries, filterMap_append]

section

variable {t : Transfer} {s : Store} {inv : Invocation}

theorem transition_quiet {st st' : TransferStatus} {v : ℕ} {intents : List Intent} {ev : Option EventType}
    (h : Transition (atStatus t st v) st' intents ev) (hst : st ∈ unsettled) (hset : st' ≠ .settling)
    (hpost : ¬ (st = .failed ∧ st' = .refunding ∧ 0 < t.stableAmount)) :
    st' ∈ unsettled ∧ (intents.filterMap journalEntry = [] ∧ (st = .refunding → st' = .refunded) ∨
      st' = .refunding ∧ ∀ e ∈ intents.filterMap journalEntry, e.lines = [] ∧ e.idempotencyKey = reverseKey t) := by
  cases h with
  | onRampDone => exact absurd rfl hset
  -- these start from a status that is reached only through SETTLING
  | settled hs | settlementFailed hs | complete hs | offRampFailed hs =>
    have hs' : st = _ := hs
    rw [hs'] at hst
    simp [unsettled] at hst
  | refundPosted hs hpos => exact absurd ⟨hs, rfl, hpos⟩ hpost
  | refundEmpty hs =>
    refine ⟨by simp [unsettled], .inr ⟨rfl, ?_⟩⟩
    intro e he
    simp only [releaseIntent, filterMap_cons, filterMap_nil, journalEntry, mem_singleton] at he
    exact he ▸ ⟨rfl, rfl⟩
  | fund hs | onRamp hs | onRampFailed hs =>
    have hs' : st = _ := hs
    refine ⟨by simp [unsettled], .inl ⟨rfl, ?_⟩⟩
    rw [hs']; simp
  | fail hcan =>
    refine ⟨by simp [unsettled], .inl ⟨rfl, ?_⟩⟩
    rintro rfl
    simp [Transfer.canTransitionTo, validTransitions, atStatus] at hcan
  | refunded hs => exact ⟨by simp [unsettled], .inl ⟨rfl, fun _ => rfl⟩⟩

theorem clean_step (h : Clean t s) (hno : ∀ t', s.transfers t.id = some t' → ¬ Posts t' inv) :
    Clean t (s.after t.id inv) := by
  obtain ⟨st, v, hrow, hst, hempty, hentries⟩ := h
  unfold Store.after
  rcases call_cases s t.id inv with hsame | ⟨t₁, st', intents, ev, ht, htenant, hplan, hmove, htr, hnew⟩
  · rw [hsame]; exact ⟨st, v, hrow, hst, hempty, hentries⟩
  rw [hrow] at ht
  cases ht
  have hnp := hno _ hrow
  have hset : st' ≠ .settling := by
    rintro rfl
    obtain ⟨r, hcall, hr, hslug⟩ := posts_of_settling hplan
    cases htr with
    | onRampDone hs hnet => exact hnp ⟨htenant, hslug, by rw [hcall]; exact ⟨hr, hs, hnet⟩⟩
  have hpost : ¬ (st = .failed ∧ st' = .refunding ∧ 0 < t.stableAmount) := by
    rintro ⟨rfl, rfl, hpos⟩
    obtain ⟨hcall, hslug⟩ := posts_of_refundPosted hplan hmove rfl hpos
    exact hnp ⟨htenant, hslug, by rw [hcall]; exact ⟨rfl, hpos⟩⟩
  -- neither kind of posting, so the step adds nothing but an empty reversal
  obtain ⟨hst', hnewEntries⟩ := transition_quiet htr hst hset hpost
  rw [hnew]
  refine ⟨st', v + 1, by simp [atStatus, Transfer.advance], hst', ?_, ?_⟩
  · rw [entriesOf_append]
    rcases hnewEntries with ⟨hnil, hnext⟩ | ⟨hrefunding, -⟩
    · rw [hnil, append_nil]
      rcases hempty with hempty | hempty | hempty
      · exact .inl hempty
      · exact .inr (.inr (hnext hempty))
      · -- nothing leaves REFUNDED
        have hedge : st' ∈ validTransitions st := htr.edge
        rw [hempty] at hedge
        cases hedge
    · exact .inr (.inl hrefunding)
  · intro e he
    rw [entriesOf_append] at he
    rcases mem_append.1 he with he | he
    · exact hentries e he
    · rcases hnewEntries with ⟨hnil, -⟩ | ⟨-, hall⟩
      · rw [hnil] at he; cases he
      · exact hall e he

theorem clean_posts (hfee : 0 ≤ t.fees.onRampFee) (h : Clean t s) {t' : Transfer} (ht' : s.transfers t.id = some t')
    (hposts : Posts t' inv) : Dirty t (s.after t.id inv) := by
  obtain ⟨st, v, hrow, hst, hempty, hentries⟩ := h
  rw [hrow] at ht'
  cases ht'
  obtain ⟨slug, st', intents, ev, hplan, hcases⟩ := plan_posts hposts
  unfold Store.after
  rw [call_of_plan hrow hposts.1 hplan]
  refine ⟨st', v + 1, by simp [atStatus, Transfer.advance], .inr ?_⟩
  rw [entriesOf_append]
  have hold : ∀ e ∈ entriesOf s, PostedOrEmpty t e := fun e he => .inr (hentries e he)
  rcases hcases with ⟨hnet, hnew⟩ | ⟨hfailed, rfl, hpos, hnew⟩
  · rw [hnew]
    refine ⟨?_, .inl ⟨?_, _, mem_append_right _ mem_cons_self, rfl⟩⟩
    · exact forall_mem_snoc hold (.inl ⟨slug, _, _, _, rfl⟩)
    · have hnet' : 0 < t.sourceAmount - t.fees.onRampFee := hnet
      linarith
  · -- a failed transfer has asked nothing of the ledger before
    have hnil : (intentsOf s.outbox).filterMap journalEntry = [] := by
      have hst' : st = .failed := hfailed
      rcases hempty with hempty | hempty | hempty
      · exact hempty
      · rw [hst'] at hempty; cases hempty
      · rw [hst'] at hempty; cases hempty
    rw [hnil, nil_append, hnew]
    refine ⟨?_, .inr ⟨hpos, .inl rfl, by simp, ?_⟩⟩
    · intro e he
      rw [mem_singleton.1 he]; exact .inl ⟨slug, _, _, _, rfl⟩
    · intro e he
      rw [mem_singleton.1 he]; exact ⟨slug, _, _, _, rfl⟩

theorem dirty_step (h : Dirty t s) : Dirty t (s.after t.id inv) := by
  obtain ⟨st, v, hrow, hpost⟩ := h
  unfold Store.after
  rcases call_cases s t.id inv with hsame | ⟨t₁, st', intents, ev, ht, -, -, -, htr, hnew⟩
  · rw [hsame]; exact ⟨st, v, hrow, hpost⟩
  rw [hrow] at ht
  cases ht
  rw [hnew]
  refine ⟨st', v + 1, by simp [atStatus, Transfer.advance], ?_⟩
  by_cases hst' : st' = .completed
  · exact .inl hst'
  right
  rcases hpost with hdone | hpost
  · -- nothing leaves COMPLETED
    have hedge : st' ∈ validTransitions st := htr.edge
    rw [hdone] at hedge
    cases hedge
  rw [entriesOf_append]
  refine ⟨?_, ?_⟩
  · intro e he
    rcases mem_append.1 he with he | he
    · exact hpost.entries e he
    · exact transition_entries htr hst' e he
  · rcases hpost.posting with ⟨hpos, e, he, hkey⟩ | ⟨hpos, hst, hne, hall⟩
    · exact .inl ⟨hpos, e, mem_append_left _ he, hkey⟩
    · -- the only way on from a refund is to REFUNDED, with nothing for the ledger
      have hnext : st' = .refunded ∧ intents.filterMap journalEntry = [] := by
        have hedge : st' ∈ validTransitions st := htr.edge
        rcases hst with rfl | rfl
        · simp [validTransitions] at hedge
          subst hedge
          cases htr with
          | refunded => exact ⟨rfl, rfl⟩
        · cases hedge
      rw [hnext.2, append_nil]
      exact .inr ⟨hpos, .inr hnext.1, hne, hall⟩

end

def NoPosting (id : UUID) (s : Store) (inv : Invocation) : Prop :=
  ∀ t, s.transfers id = some t → ¬ Posts t inv

section

variable {t : Transfer} {s : Store} {calls : List Invocation}

theorem run_dirty (hfee : 0 ≤ t.fees.onRampFee) (h : Clean t s)
    (hrun : ¬ Along (Store.after t.id) (NoPosting t.id) s calls) : Dirty t (run (Store.after t.id) s calls) := by
  induction calls using List.reverseRecOn with
  | nil => exact absurd trivial hrun
  | append_singleton calls inv ih =>
    rw [run_snoc]
    -- the last call is the first that posts, or an earlier one was
    by_cases hbefore : Along (Store.after t.id) (NoPosting t.id) s calls
    · have hposts : ¬ NoPosting t.id (run (Store.after t.id) s calls) inv :=
        fun hno => hrun ((along_snoc s calls inv).2 ⟨hbefore, hno⟩)
      simp only [NoPosting, not_forall, not_not] at hposts
      obtain ⟨t', ht', hposts⟩ := hposts
      exact clean_posts hfee (run_preserves (fun _ _ => clean_step) h hbefore) ht' hposts
    · exact dirty_step (ih hbefore)

/-! ## The ledger -/

variable {deliveries : List Intent} (hdel : ∀ i, i ∈ deliveries ↔ i ∈ intentsOf s.outbox)
include hdel

theorem mem_executeLedger (he : e ∈ executeLedger deliveries) : e ∈ entriesOf s := by
  obtain ⟨i, hi, hie⟩ := mem_filterMap.1 (mem_journal _ he)
  exact mem_filterMap.2 ⟨i, (hdel i).1 hi, hie⟩

theorem exists_mem_executeLedger (he : e ∈ entriesOf s) :
    ∃ e' ∈ executeLedger deliveries, e'.idempotencyKey = e.idempotencyKey := by
  obtain ⟨i, hi, hie⟩ := mem_filterMap.1 he
  exact exists_mem_journal _ (mem_filterMap.2 ⟨i, (hdel i).2 hi, hie⟩)

theorem clean_net (h : Clean t s) (account : String) (currency : Currency) :
    netEffect account currency (executeLedger deliveries) = 0 := by
  obtain ⟨st, v, -, -, -, hentries⟩ := h
  apply sum_eq_zero
  intro x hx
  obtain ⟨e, he, rfl⟩ := mem_map.1 hx
  exact empty_effect (hentries e (mem_executeLedger hdel he)).1 account currency

theorem posted_mem {st : TransferStatus} (h : Posted t st (entriesOf s)) :
    ∃ e ∈ executeLedger deliveries, ∃ slug, Shaped t slug e := by
  rcases h.posting with ⟨-, e, he, hkey⟩ | ⟨-, -, hne, hall⟩
  · obtain ⟨e', he', hkey'⟩ := exists_mem_executeLedger hdel he
    rcases h.entries e' (mem_executeLedger hdel he') with hshaped | ⟨-, hrev⟩
    · exact ⟨e', he', hshaped⟩
    -- an empty reversal has another key than the on-ramp posting
    · exact absurd (hkey.symm.trans (hkey'.symm.trans hrev)) (ne_of_head (by simp [onRampKey, reverseKey]))
  · obtain ⟨e, he⟩ := exists_mem_of_ne_nil _ hne
    obtain ⟨e', he', -⟩ := exists_mem_executeLedger hdel he
    exact ⟨e', he', hall e' (mem_executeLedger hdel he')⟩

theorem posted_net {st : TransferStatus} (hstable : 0 ≤ t.stableAmount) (hsource : 0 ≤ t.sourceAmount)
    (h : Posted t st (entriesOf s)) :
    ∃ account currency, netEffect account currency (executeLedger deliveries) ≠ 0 := by
  obtain ⟨e, he, slug, hshaped⟩ := posted_mem hdel h
  by_cases hpos : 0 < t.sourceAmount
  · -- every entry credits clearing accounts
    refine ⟨clearingAccount t slug, t.sourceCurrency, ne_of_gt (sum_map_pos ?_ he ?_)⟩
    · intro x hx
      rcases h.entries x (mem_executeLedger hdel hx) with ⟨slug', hx'⟩ | ⟨hx', -⟩
      · rw [shaped_clearing hx']
        split
        · exact hsource
        · exact le_rfl
      · rw [empty_effect hx']
    · rw [shaped_clearing hshaped, if_pos rfl]; exact hpos
  · -- every entry debits the stablecoin account
    have hstable' : 0 < t.stableAmount := by
      rcases h.posting with ⟨hpos', -⟩ | ⟨hpos', -⟩
      · exact absurd hpos' hpos
      · exact hpos'
    refine ⟨cryptoAccount t, t.stableCoin, fun hzero => ?_⟩
    have hneg : 0 < ((executeLedger deliveries).map fun x => -x.effect (cryptoAccount t) t.stableCoin).sum := by
      refine sum_map_pos ?_ he ?_
      · intro x hx
        rcases h.entries x (mem_executeLedger hdel hx) with ⟨slug', hx'⟩ | ⟨hx', -⟩
        · rw [shaped_crypto hx', neg_neg]; exact hstable
        · rw [empty_effect hx', neg_zero]
      · rw [shaped_crypto hshaped, neg_neg]; exact hstable'
    have hsum : ((executeLedger deliveries).map fun x => -x.effect (cryptoAccount t) t.stableCoin).sum =
        -netEffect (cryptoAccount t) t.stableCoin (executeLedger deliveries) := by
      rw [netEffect, sum_neg, map_map]
      rfl
    rw [hsum, hzero, neg_zero] at hneg
    exact lt_irrefl _ hneg

end

theorem holding_created {t : Transfer} (h : NewRow tenantID t) (entries : List OutboxEntry) :
    (Store.holding t entries).transfers t.id = some (atStatus t .created 0) := by
  have ht : atStatus t .created 0 = t := by rw [atStatus, ← h.status, ← h.version]
  simp [Store.holding, ht]

theorem created_clean {e : CreateEnv} {req : CreateTransferRequest} {t : Transfer}
    {entries : List OutboxEntry} (hcreate : createTransfer e tenantID req = .ok (.row t entries)) :
    Clean t (Store.holding t entries) := by
  obtain ⟨hrow, -, hentries⟩ := createTransfer_row hcreate
  refine ⟨.created, 0, holding_created hrow entries, by simp [unsettled], .inl ?_, ?_⟩
  · rw [hentries]; rfl
  · rw [hentries]; intro x hx; cases hx

/-- **The ledger ends at zero exactly when nothing was posted**, for every sequence of engine calls
that ends in FAILED or REFUNDED, and every order in which the intents are delivered, as often as one
likes. -/
theorem net_zero_iff {e : CreateEnv} {tenantID : UUID} {req : CreateTransferRequest} {t : Transfer}
    {entries : List OutboxEntry} (hcreate : createTransfer e tenantID req = .ok (.row t entries))
    (calls : List Invocation)
    (hend : ∀ t', (run (Store.after t.id) (Store.holding t entries) calls).transfers t.id = some t' →
      t'.status = .failed ∨ t'.status = .refunded)
    (deliveries : List Intent)
    (hdel : ∀ i, i ∈ deliveries ↔ i ∈ intentsOf (run (Store.after t.id) (Store.holding t entries) calls).outbox) :
    (∀ account currency, netEffect account currency (executeLedger deliveries) = 0) ↔
      Along (Store.after t.id) (NoPosting t.id) (Store.holding t entries) calls := by
  obtain ⟨hrow, -, -⟩ := createTransfer_row hcreate
  have hstart := created_clean hcreate
  constructor
  · intro hzero
    by_contra hposts
    obtain ⟨st, v, hat, hdone | hpost⟩ := run_dirty hrow.onRampFee_nonneg hstart hposts
    -- a completed transfer has not ended in FAILED or REFUNDED
    · rcases hend _ hat with h | h
      all_goals
        rw [show (atStatus t st v).status = st from rfl, hdone] at h
        cases h
    · obtain ⟨account, currency, hne⟩ := posted_net hdel hrow.stable_nonneg hrow.source_nonneg hpost
      exact hne (hzero account currency)
  · intro hrun account currency
    exact clean_net hdel (run_preserves (fun _ _ => clean_step) hstart hrun) account currency

def earlyRefund : List Invocation :=
  [ofTenant .fundTransfer, ofTenant .initiateRefund, ofTenant (.handleRefundResult ⟨true, "", ""⟩)]

theorem net_zero_early_refund :
    let s := run (Store.after 7) (Store.holding (sampleRow 7) (sampleEntries 7)) earlyRefund
    (s.transfers 7).map (·.status) = some .refunded ∧
    ∀ account currency, netEffect account currency (executeLedger (intentsOf s.outbox)) = 0 := by
  have hst : ((run (Store.after 7) (Store.holding (sampleRow 7) (sampleEntries 7)) earlyRefund).transfers 7).map
      (·.status) = some .refunded := by decide +kernel
  have hfunded : ((run (Store.after 7) (Store.holding (sampleRow 7) (sampleEntries 7))
      [ofTenant .fundTransfer]).transfers 7).map (·.status) = some .funded := by decide +kernel
  have hrun : Along (Store.after 7) (NoPosting 7) (Store.holding (sampleRow 7) (sampleEntries 7)) earlyRefund := by
    refine ⟨fun t _ h => h.2.2, fun t ht h => ?_, fun t _ h => h.2.2, trivial⟩
    have hsome : (some t).map (·.status) = some .funded := ht ▸ hfunded
    simp [h.2.2.1] at hsome
  refine ⟨hst, (net_zero_iff sample_created earlyRefund (fun t' ht' => ?_) _ fun _ => Iff.rfl).2 hrun⟩
  have hsome : (some t').map (·.status) = some .refunded := ht' ▸ hst
  exact .inr (by simpa using hsome)

def failedSettlement : List Invocation :=
  [ofTenant .fundTransfer, ofTenant .initiateOnRamp, ofTenant (.handleOnRampResult ⟨true, "", ""⟩),
    ofTenant (.handleSettlementResult ⟨false, "", "reverted"⟩)]

/-- **A failed settlement posts the on-ramp twice**: the stablecoin account is 2500 down and the
clearing account 2000 up. -/
theorem settlement_failure_posts_twice :
    let s := run (Store.after 7) (Store.holding (sampleRow 7) (sampleEntries 7)) failedSettlement
    createTransfer (sampleEnv 7) 1 sampleRequest = .ok (.row (sampleRow 7) (sampleEntries 7)) ∧
    (s.transfers 7).map (·.status) = some .failed ∧
    netEffect "assets:crypto:usdt:tron" "USDT" (executeLedger (intentsOf s.outbox)) = -2500 ∧
    netEffect "tenant:acme:assets:bank:gbp:clearing" "GBP" (executeLedger (intentsOf s.outbox)) = 2000 := by
  refine ⟨sample_created, ?_, ?_, ?_⟩ <;> decide +kernel

end Settla.Node
