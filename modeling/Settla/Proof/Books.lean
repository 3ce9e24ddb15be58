import Settla.Node.Books
import Settla.Proof.Accounting
import Settla.Proof.Release
import Settla.Proof.Reversal

/-!
# Do the books agree

A set of transfers and deposits is run, and every intent for the treasury and the ledger is executed
once, in any order.
-/

namespace Settla.Node.Books

open Settla.Core Treasury Lib Lib.Threads List Function

/-! ## Sagas -/

/-- A transfer that was created, and the engine calls on it. -/
structure TransferRun where
  env : CreateEnv
  tenantID : UUID
  request : CreateTransferRequest
  row : Transfer
  entries : List OutboxEntry
  created : createTransfer env tenantID request = .ok (.row row entries)
  calls : List Invocation

def TransferRun.store (r : TransferRun) : Store := run (Store.after r.row.id) (Store.holding r.row r.entries) r.calls

def TransferRun.status (r : TransferRun) : Option TransferStatus := (r.store.transfers r.row.id).map (·.status)

def TransferRun.treasuryCalls (r : TransferRun) : List Call := (intentsOf r.store.outbox).filterMap intentCall

structure DepositRun where
  session : DepositSession
  actions : List (Action (SessionCall Deposit.Call) SessionAnswer)

def DepositRun.db (r : DepositRun) : Deposit.DB :=
  (run (System.act Deposit.program) (System.init ⟨r.session, [], []⟩) r.actions).state

structure BankDepositRun where
  session : BankDepositSession
  actions : List (Action (SessionCall BankDeposit.Call) SessionAnswer)

def BankDepositRun.db (r : BankDepositRun) : BankDeposit.DB :=
  (run (System.act BankDeposit.program) (System.init ⟨r.session, [], []⟩) r.actions).state

structure Sagas where
  transfers : List TransferRun
  deposits : List DepositRun
  bankDeposits : List BankDepositRun

namespace Sagas

variable (s : Sagas)

def credits : List CreditDepositPayload := s.deposits.flatMap fun r => creditsOf r.db.outbox

def bankCredits : List CreditBankDepositPayload := s.bankDeposits.flatMap fun r => bankCreditsOf r.db.outbox

def treasuryCalls : List Call :=
  s.transfers.flatMap TransferRun.treasuryCalls ++ s.credits.map depositCreditCall ++ s.bankCredits.map bankCreditCall

def journalEntries : List JournalEntry := s.transfers.flatMap fun r => entriesOf r.store

def consumed (k : PositionKey) : ℤ :=
  (s.transfers.map fun r =>
    if r.status = some .completed ∧ treasuryPosition r.row = k then Treasury.micro r.row.sourceAmount else 0).sum

def credited (k : PositionKey) : ℤ :=
  (s.credits.map fun p => if creditPosition p = k then Treasury.micro p.netAmount else 0).sum +
    (s.bankCredits.map fun p => if bankCreditPosition p = k then Treasury.micro p.netAmount else 0).sum

end Sagas

/-! ## The treasury -/

/-- What a call adds to the balance of a position when it takes effect. -/
def balanceMove (k : PositionKey) : Call → ℤ
  | .op kind k' amount _ _ => if k' = k then (specOf kind).effect.balance * Treasury.micro amount else 0
  | .updateBalance _ _ => 0

/-- The call returns, and if it moves a balance, it succeeds and is not a repetition. -/
def Executes (w : World) (s : Treasury.Step) : Prop :=
  match s.2 with
  | .op kind _ _ ref _ =>
    (w.exec s.1 s.2).2 ≠ .panic ∧
      ((specOf kind).effect.balance ≠ 0 → (w.exec s.1 s.2).2 = .nil ∧ w.mgr.held ⟨ref, kind⟩ = false)
  | .updateBalance _ _ => False

instance (w : World) (s : Treasury.Step) : Decidable (Executes w s) := by
  unfold Executes
  split <;> infer_instance

variable {t : Transfer} {w : World}

theorem balance_executes {s : Treasury.Step} (h : Executes w s) (k : PositionKey) :
    (w.exec s.1 s.2).1.mgr.balanceAt k = (w.mgr.balanceAt k).map (· + balanceMove k s.2) := by
  obtain ⟨e, c⟩ := s
  cases c with
  | updateBalance k' v => cases h
  | op kind k' amount ref refType =>
    rcases hexec : w.exec e (.op kind k' amount ref refType) with ⟨w', r⟩
    have h : r ≠ .panic ∧ ((specOf kind).effect.balance ≠ 0 → r = .nil ∧ w.mgr.held ⟨ref, kind⟩ = false) := by
      unfold Executes at h
      rwa [hexec] at h
    unfold Manager.balanceAt balanceMove
    dsimp only
    rcases outcome_effect (exec_op hexec) h.1 with ⟨hsame, hdup, -⟩ | ⟨-, -, -, -, ps, a, ha, -, hps, -, hpos⟩
    · -- a call without effect is not one that moves a balance
      have hzero : (specOf kind).effect.balance = 0 := by
        by_contra hne
        obtain ⟨hnil, hfree⟩ := h.2 hne
        exact absurd (hdup hnil).1 (by rw [hfree]; exact Bool.false_ne_true)
      rw [hsame, hzero]
      cases w.mgr.positions k <;> simp
    · rw [hpos]
      by_cases hk : k' = k
      · subst hk
        rw [update_self, hps, if_pos rfl, micro_eq ha]
        rfl
      · rw [update_of_ne (Ne.symm hk), if_neg hk]
        cases w.mgr.positions k <;> simp

/-- **Executed calls** add up on the balance of each position. -/
theorem balance_after {steps : List Treasury.Step} (h : Along (fun w s => (w.exec s.1 s.2).1) Executes w steps)
    (k : PositionKey) :
    (w.after steps).mgr.balanceAt k = (w.mgr.balanceAt k).map (· + (steps.map fun s => balanceMove k s.2).sum) := by
  induction steps generalizing w with
  | nil =>
    show w.mgr.balanceAt k = _
    cases w.mgr.balanceAt k <;> simp
  | cons s steps ih =>
    have hrest : (w.after (s :: steps)).mgr.balanceAt k = _ := ih h.2
    rw [hrest, balance_executes h.1]
    cases w.mgr.balanceAt k with
    | none => rfl
    | some b => simp [add_assoc]

/-! ## The intents of a transfer -/

def movesAt (k : PositionKey) (is : List Intent) : ℤ := ((is.filterMap intentCall).map (balanceMove k)).sum

theorem movesAt_append (k : PositionKey) (is js : List Intent) : movesAt k (is ++ js) = movesAt k is + movesAt k js := by
  unfold movesAt
  rw [filterMap_append, map_append, sum_append]

variable {intents : List Intent} {ev : Option EventType} {k : PositionKey}

theorem transition_moves {st : TransferStatus} (h : Transition t st intents ev) (k : PositionKey) :
    movesAt k intents = if st = .completed ∧ treasuryPosition t = k then -Treasury.micro t.sourceAmount else 0 := by
  unfold movesAt
  cases h with
  | complete =>
    simp [consumeIntent, webhookIntent, filterMap_cons, intentCall, balanceMove, specOf_effect, treasuryPosition]
  | _ => simp [reserveIntent, releaseIntent, webhookIntent, filterMap_cons, intentCall, balanceMove, specOf_effect]

/-- The transfer has taken its amount off its position if it is completed. -/
def Consumed (k : PositionKey) (t : Transfer) (s : Store) : Prop :=
  ∃ st v, s.transfers t.id = some (atStatus t st v) ∧
    movesAt k (intentsOf s.outbox) = if st = .completed ∧ treasuryPosition t = k then -Treasury.micro t.sourceAmount else 0

theorem consumed_after (s : Store) (inv : Invocation) (h : Consumed k t s) : Consumed k t (s.after t.id inv) := by
  unfold Store.after
  rcases call_cases s t.id inv with hsame | ⟨t₁, st', intents, ev, ht, -, -, -, htr, hnew⟩
  · rw [hsame]
    exact h
  · obtain ⟨st, v, hrow, hmoves⟩ := h
    obtain rfl : atStatus t st v = t₁ := Option.some.inj (hrow.symm.trans ht)
    -- nothing leaves COMPLETED, so nothing has been taken off before
    have hopen : st ≠ .completed := by
      rintro rfl
      have hedge := htr.edge
      cases hedge
    rw [if_neg fun hc => hopen hc.1] at hmoves
    rw [hnew]
    refine ⟨st', v + 1, update_self .., ?_⟩
    rw [intentsOf_append, intentsOf_outboxEntries, movesAt_append, hmoves, zero_add]
    exact transition_moves htr k

/-- **A transfer moves the balance of its position** when it is completed. -/
theorem transfer_moves (r : TransferRun) (k : PositionKey) :
    (r.treasuryCalls.map (balanceMove k)).sum =
      -(if r.status = some .completed ∧ treasuryPosition r.row = k then Treasury.micro r.row.sourceAmount else 0) := by
  obtain ⟨hrow, -, hentries⟩ := createTransfer_row r.created
  have hstart : Consumed k r.row (Store.holding r.row r.entries) := by
    refine ⟨.created, 0, holding_created hrow r.entries, ?_⟩
    rw [hentries]
    rfl
  obtain ⟨st, v, hat, hmoves⟩ : Consumed k r.row r.store := run_invariant consumed_after hstart r.calls
  have hstatus : r.status = some st := by
    unfold TransferRun.status
    rw [hat]
    rfl
  have hsum : (r.treasuryCalls.map (balanceMove k)).sum = _ := hmoves
  rw [hsum, hstatus]
  simp only [Option.some.injEq]
  split <;> simp

/-! ## The intents of all -/

theorem sagas_moves (s : Sagas) (k : PositionKey) :
    (s.treasuryCalls.map (balanceMove k)).sum = s.credited k - s.consumed k := by
  have htransfers : ((s.transfers.flatMap TransferRun.treasuryCalls).map (balanceMove k)).sum = -s.consumed k := by
    rw [flatMap_def, map_flatten, sum_flatten, map_map, map_map, Sagas.consumed, sum_neg,
      map_map]
    exact congrArg List.sum (map_congr_left fun r _ => transfer_moves r k)
  unfold Sagas.treasuryCalls Sagas.credited
  rw [map_append, map_append, sum_append, sum_append, htransfers]
  simp [comp_def, depositCreditCall, bankCreditCall, balanceMove, specOf_effect]
  ring

/-! ## The accounts of the ledger -/

def accountOf (slugs : UUID → Option String) (k : PositionKey) : String :=
  Reconciliation.buildAccountCode ((slugs k.tenantID).getD k.tenantID.string) ⟨k.tenantID, k.currency, k.location, 0⟩

def lastWord (s : String) : List Char := s.toList.reverse.takeWhile (· ≠ ':')

theorem lastWord_append (a b : String) : lastWord (a ++ ":" ++ b) = lastWord b := by
  unfold lastWord
  rw [String.toList_append, String.toList_append, reverse_append, reverse_append, takeWhile_append]
  split
  · next h =>
    have hall : b.toList.reverse.takeWhile (· ≠ ':') = b.toList.reverse :=
      ( takeWhile_prefix _).eq_of_length h
    rw [hall]
    exact append_nil _
  · rfl

def engineWords : List String := ["clearing", "pending", "recipient", "settlement"]

/-- An account of the engine's postings: not one of a tenant, or one that ends in one of those words. -/
def OfEngine (account : String) : Prop :=
  account.toList.head? ≠ some 't' ∨ ∃ word ∈ engineWords, lastWord account = lastWord word

theorem lastWord_tenant (slug path : String) : lastWord (tenantAccountCode slug path) = lastWord path :=
  lastWord_append ("tenant:" ++ slug) path

theorem clearingAccount_ofEngine (t : Transfer) (slug : String) : OfEngine (clearingAccount t slug) := by
  refine .inr ⟨"clearing", by decide, ?_⟩
  have hword : ":clearing" = ":" ++ "clearing" := by decide
  rw [clearingAccount, lastWord_tenant, hword, ← String.append_assoc, lastWord_append]

theorem clearingLines_ofEngine (t : Transfer) (slug : String) (type : EntryType) (d₁ d₂ d₃ : String) :
    ∀ l ∈ clearingLines t slug type d₁ d₂ d₃, OfEngine l.accountCode := by
  simp only [clearingLines, forall_mem_cons]
  refine ⟨.inl ?_, .inl (by decide), clearingAccount_ofEngine t slug, forall_mem_nil _⟩
  simp [cryptoAccount]

theorem completionLines_ofEngine (t : Transfer) (slug : String) :
    ∀ l ∈ completionLines t slug, OfEngine l.accountCode := by
  simp only [completionLines, forall_mem_cons, OfEngine, lastWord_tenant]
  exact ⟨.inr (by decide +kernel), .inr (by decide +kernel), .inr (by decide +kernel), forall_mem_nil _⟩

theorem mem_withIDs {l : EntryLine} {ps : List Posting} (h : l ∈ withIDs ps) : l.toPosting ∈ ps := by
  obtain ⟨⟨p, i⟩, hmem, rfl⟩ := mem_map.1 h
  exact (mem_zipIdx hmem).2.2 ▸ getElem_mem _

def OwnPostings (entries : List JournalEntry) : Prop := ∀ e ∈ entries, ∀ l ∈ e.lines, OfEngine l.accountCode

/-- **The engine posts to its own accounts.** -/
theorem transition_accounts {st : TransferStatus} (h : Transition t st intents ev) :
    OwnPostings (intents.filterMap journalEntry) := by
  intro e he l hl
  cases h with
  | onRampDone =>
    obtain rfl := mem_singleton.1 he
    exact clearingLines_ofEngine t _ _ _ _ _ _ (mem_withIDs hl)
  | complete =>
    obtain rfl := mem_singleton.1 he
    exact completionLines_ofEngine t _ _ (mem_withIDs hl)
  | settlementFailed | offRampFailed | refundPosted =>
    obtain rfl := mem_singleton.1 he
    -- a reversal has the accounts of the lines it is made of
    obtain ⟨q, hq, hrev⟩ := mem_map.1 (mem_withIDs hl)
    rw [← hrev]
    exact clearingLines_ofEngine t _ _ _ _ _ q hq
  | refundEmpty =>
    obtain rfl := mem_singleton.1 he
    exact absurd hl not_mem_nil
  | _ => exact absurd he not_mem_nil

theorem accounts_after (s : Store) (inv : Invocation) (h : OwnPostings (entriesOf s)) :
    OwnPostings (entriesOf (s.after t.id inv)) := by
  unfold Store.after
  rcases call_cases s t.id inv with hsame | ⟨t₁, st', intents, ev, -, -, -, -, htr, hnew⟩
  · rw [hsame]
    exact h
  · rw [hnew, entriesOf_append]
    exact forall_mem_append.2 ⟨h, transition_accounts htr⟩

theorem journal_accounts (s : Sagas) : OwnPostings s.journalEntries := by
  intro e he
  obtain ⟨r, -, her⟩ := mem_flatMap.1 he
  obtain ⟨-, -, hentries⟩ := createTransfer_row r.created
  have hstart : OwnPostings (entriesOf (Store.holding r.row r.entries)) := by
    rw [hentries]
    exact forall_mem_nil _
  have haccounts : OwnPostings (entriesOf r.store) :=
    run_invariant (accounts_after (t := r.row)) hstart r.calls
  exact haccounts e her

theorem accountOf_ofEngine (slugs : UUID → Option String) {k : PositionKey} (h : OfEngine (accountOf slugs k)) :
    ∃ word ∈ engineWords, lastWord k.location = lastWord word := by
  rcases h with hhead | hlast
  · exact (hhead (by simp [accountOf, Reconciliation.buildAccountCode])).elim
  · rwa [accountOf, Reconciliation.buildAccountCode, lastWord_append] at hlast

/-- **Nothing is posted to the account of a position**, unless the last word of its location is one of the engine's. -/
theorem posted_elsewhere (s : Sagas) (slugs : UUID → Option String) (k : PositionKey) :
    (∀ e ∈ s.journalEntries, ∀ l ∈ e.lines, l.accountCode ≠ accountOf slugs k) ∨
      ∃ word ∈ engineWords, lastWord k.location = lastWord word := by
  refine or_iff_not_imp_right.2 fun hword e he l hl hcode => hword (accountOf_ofEngine slugs ?_)
  rw [← hcode]
  exact journal_accounts s e he l hl

/-! ## The two books -/

/-- The balance of every position is that of its account. -/
def Agree (w : World) (journal : List JournalEntry) (slugs : UUID → Option String) : Prop :=
  ∀ k ps, w.mgr.positions k = some ps → fromMicro ps.balanceMicro = accountBalance journal (accountOf slugs k)

/-- The check is run over an index of the positions by their tenants, with some tolerance, and reports no
mismatch. -/
def CheckPasses (w : World) (journal : List JournalEntry) (slugs : UUID → Option String) : Prop :=
  ∀ index tolerance tenantIDs, (∀ tenantID, ∀ k ∈ index tenantID, k.tenantID = tenantID) → 0 ≤ tolerance →
    (treasuryLedgerCheck w journal slugs index tolerance).run tenantIDs =
      .ok ⟨"treasury_ledger_balance", "pass", [], 0⟩

theorem check_passes {journal : List JournalEntry} {slugs : UUID → Option String} (h : Agree w journal slugs) :
    CheckPasses w journal slugs := by
  intro index tolerance tenantIDs hindex htolerance
  have hnone : ∀ tenantID, ∀ k ∈ index tenantID, ∀ ps, w.mgr.positions k = some ps →
      (treasuryLedgerCheck w journal slugs index tolerance).comparePosition tenantID (snapshot k ps) = none := by
    intro tenantID k hk ps hps
    obtain rfl := hindex tenantID k hk
    have hagree : fromMicro ps.balanceMicro - accountBalance journal (accountOf slugs k) = 0 := sub_eq_zero.2 (h k ps hps)
    refine if_neg ?_
    show ¬ tolerance < |fromMicro ps.balanceMicro - accountBalance journal (accountOf slugs k)|
    rw [hagree]
    exact not_lt.2 htolerance
  have hcompare : (treasuryLedgerCheck w journal slugs index tolerance).compare tenantIDs = some [] := by
    induction tenantIDs with
    | nil => rfl
    | cons tenantID tenantIDs ih =>
      rw [Reconciliation.TreasuryLedgerCheck.compare, ih]
      refine congrArg some ?_
      rw [append_nil, filterMap_eq_nil_iff]
      intro pos hpos
      obtain ⟨k, hk, hsnap⟩ := mem_filterMap.1 hpos
      obtain ⟨ps, hps, rfl⟩ := Option.map_eq_some_iff.1 hsnap
      exact hnone tenantID k hk ps hps
  unfold Reconciliation.TreasuryLedgerCheck.run
  rw [hcompare]
  rfl

/-- Every intent of a set of transfers and deposits is executed once. -/
structure Sagas.Executed (s : Sagas) (w : World) (steps : List Treasury.Step) (posted : List JournalEntry) : Prop where
  calls : (steps.map (·.2)).Perm s.treasuryCalls
  executes : Along (fun w s => (w.exec s.1 s.2).1) Executes w steps
  posts : posted.Perm s.journalEntries

theorem fromMicro_add (a b : ℤ) : fromMicro (a + b) = fromMicro a + fromMicro b := by
  unfold fromMicro
  rw [Int.cast_add, add_div]

/-- **Whether the books agree again**: on each position, what the deposits have credited less what
the completed transfers have taken off comes to what the transfers post to its account. -/
theorem books_agree_iff (s : Sagas) (w : World) (steps : List Treasury.Step) (journal posted : List JournalEntry)
    (slugs : UUID → Option String) (hstart : Agree w journal slugs) (hexec : s.Executed w steps posted) :
    (Agree (w.after steps) (journal ++ posted) slugs ∧ CheckPasses (w.after steps) (journal ++ posted) slugs) ↔
      ∀ k, (w.mgr.positions k).isSome →
        fromMicro (s.credited k - s.consumed k) = accountBalance s.journalEntries (accountOf slugs k) := by
  have hmoves : ∀ k, (steps.map fun x => balanceMove k x.2).sum = s.credited k - s.consumed k := by
    intro k
    rw [← sagas_moves, ← (hexec.calls.map (balanceMove k)).sum_eq, map_map]
    rfl
  have hafter : ∀ k, (w.after steps).mgr.balanceAt k = (w.mgr.balanceAt k).map (· + (s.credited k - s.consumed k)) := by
    intro k
    rw [balance_after hexec.executes k, hmoves]
  have hledger : ∀ account, accountBalance (journal ++ posted) account =
      accountBalance journal account + accountBalance s.journalEntries account := by
    intro account
    rw [accountBalance, map_append, sum_append]
    congr 1
    exact (hexec.posts.map (entryAdds account)).sum_eq
  -- on one position, both books start from the same balance
  have hposition : ∀ k ps ps', w.mgr.positions k = some ps → (w.after steps).mgr.positions k = some ps' →
      (fromMicro ps'.balanceMicro = accountBalance (journal ++ posted) (accountOf slugs k) ↔
        fromMicro (s.credited k - s.consumed k) = accountBalance s.journalEntries (accountOf slugs k)) := by
    intro k ps ps' hps hps'
    have hbalance : ps'.balanceMicro = ps.balanceMicro + (s.credited k - s.consumed k) := by
      have hk := hafter k
      unfold Manager.balanceAt at hk
      rw [hps, hps'] at hk
      exact Option.some.inj hk
    rw [hbalance, fromMicro_add, hledger, hstart k ps hps]
    exact add_right_inj _
  have hsome : ∀ k, ((w.after steps).mgr.positions k).isSome = (w.mgr.positions k).isSome := by
    intro k
    have hk := congrArg Option.isSome (hafter k)
    unfold Manager.balanceAt at hk
    rwa [Option.isSome_map, Option.isSome_map, Option.isSome_map] at hk
  constructor
  · rintro ⟨hagree, -⟩ k hk
    obtain ⟨ps, hps⟩ := Option.isSome_iff_exists.1 hk
    obtain ⟨ps', hps'⟩ := Option.isSome_iff_exists.1 ((hsome k).trans hk)
    exact (hposition k ps ps' hps hps').1 (hagree k ps' hps')
  · intro hall
    have hagree : Agree (w.after steps) (journal ++ posted) slugs := by
      intro k ps' hps'
      have hk : (w.mgr.positions k).isSome := by
        rw [← hsome k, hps']
        rfl
      obtain ⟨ps, hps⟩ := Option.isSome_iff_exists.1 hk
      exact (hposition k ps ps' hps hps').2 (hall k hk)
    exact ⟨hagree, check_passes hagree⟩

/-! ## One transfer -/

def sampleRun (calls : List Invocation) : TransferRun where
  env := sampleEnv 7
  tenantID := 1
  request := sampleRequest
  row := sampleRow 7
  entries := sampleEntries 7
  created := sample_created
  calls := calls

def sampleSagas (calls : List Invocation) : Sagas := ⟨[sampleRun calls], [], []⟩

def inOrder (s : Sagas) : List Treasury.Step := s.treasuryCalls.map fun c => (⟨0, .ok, true, .ok⟩, c)

theorem executed_inOrder {s : Sagas} (h : Along (fun w s => (w.exec s.1 s.2).1) Executes w (inOrder s)) :
    s.Executed w (inOrder s) s.journalEntries where
  calls := by
    unfold inOrder
    rw [map_map]
    exact .of_eq (map_id _)
  executes := h
  posts := .refl _

def openingJournal : List JournalEntry :=
  [⟨1, "opening", "", "", 1, none, withIDs [⟨"tenant:acme:assets:bank:gbp:bank:gbp", .credit, 5000, "GBP", ""⟩,
    ⟨"equity", .debit, 5000, "GBP", ""⟩]⟩]

theorem opening_agrees : Agree poundTreasury openingJournal fun _ => some "acme" := by
  intro k ps hps
  by_cases hk : k = ⟨1, "GBP", "bank:gbp"⟩
  · subst hk
    obtain rfl : _ = ps := Option.some.inj hps
    decide +kernel
  · have hnone : poundTreasury.mgr.positions k = none := update_of_ne hk ..
    rw [hnone] at hps
    cases hps

/-- **A transfer that is refunded early** leaves both books as they were. -/
theorem refunded_books_agree :
    (sampleRun earlyRefund).status = some .refunded ∧
      Agree (poundTreasury.after (inOrder (sampleSagas earlyRefund)))
        (openingJournal ++ (sampleSagas earlyRefund).journalEntries) (fun _ => some "acme") := by
  have hstatus : (sampleRun earlyRefund).status = some .refunded := by decide +kernel
  have hlines : ∀ e ∈ (sampleSagas earlyRefund).journalEntries, e.lines = [] := by decide +kernel
  refine ⟨hstatus, ((books_agree_iff (sampleSagas earlyRefund) poundTreasury _ openingJournal _ _ opening_agrees
    (executed_inOrder (by decide +kernel))).2 fun k _ => ?_).1⟩
  have hconsumed : (sampleSagas earlyRefund).consumed k = 0 := by
    simp [Sagas.consumed, sampleSagas, hstatus]
  have hposted : accountBalance (sampleSagas earlyRefund).journalEntries (accountOf (fun _ => some "acme") k) = 0 := by
    refine sum_eq_zero fun x hx => ?_
    obtain ⟨e, he, rfl⟩ := mem_map.1 hx
    unfold entryAdds
    rw [hlines e he]
    rfl
  have hcredited : (sampleSagas earlyRefund).credited k = 0 := rfl
  rw [hconsumed, hcredited, hposted]
  simp [fromMicro]

def completing : List Invocation :=
  [ofTenant .fundTransfer, ofTenant .initiateOnRamp, ofTenant (.handleOnRampResult ⟨true, "", ""⟩),
    ofTenant (.handleSettlementResult ⟨true, "", ""⟩), ofTenant (.handleOffRampResult ⟨true, "", ""⟩)]

/-- **A completed transfer** takes 1000 pounds off its position, but posts them to the clearing
account. -/
theorem completed_books_differ :
    let s := sampleSagas completing
    let w := poundTreasury.after (inOrder s)
    let journal := openingJournal ++ s.journalEntries
    let slugs : UUID → Option String := fun _ => some "acme"
    let index : UUID → List PositionKey := fun id => if id = 1 then [⟨1, "GBP", "bank:gbp"⟩] else []
    (sampleRun completing).status = some .completed ∧ s.Executed poundTreasury (inOrder s) s.journalEntries ∧
      Agree poundTreasury openingJournal slugs ∧ ¬ Agree w journal slugs ∧
      (treasuryLedgerCheck w journal slugs index 0).run [1] = .ok ⟨"treasury_ledger_balance", "fail",
        [.mismatch 1 "tenant:acme:assets:bank:gbp:bank:gbp" 4000 5000 1000], 1⟩ := by
  intro s w journal slugs index
  have hcompare : (treasuryLedgerCheck w journal slugs index 0).compare [1] =
      some [.mismatch 1 "tenant:acme:assets:bank:gbp:bank:gbp" 4000 5000 1000] := by decide +kernel
  refine ⟨by decide +kernel, executed_inOrder (by decide +kernel), opening_agrees, fun hagree => ?_, ?_⟩
  · obtain ⟨ps, hps, hbalance⟩ : ∃ ps, w.mgr.positions ⟨1, "GBP", "bank:gbp"⟩ = some ps ∧ ps.balanceMicro = 4000000000 :=
      Option.map_eq_some_iff.1 (by decide +kernel)
    have hledger : accountBalance journal (accountOf slugs ⟨1, "GBP", "bank:gbp"⟩) = 5000 := by decide +kernel
    have heq := hagree _ ps hps
    rw [hbalance] at heq
    exact absurd heq (by decide +kernel)
  · unfold Reconciliation.TreasuryLedgerCheck.run
    rw [hcompare]
    rfl

end Settla.Node.Books
