import Settla.Ledger.Sync

/-!
# The read model
-/

namespace Settla.Ledger.Sync

open Lib List

variable (accounts : String → Option UUID) {e : JournalEntry} {x : Answers} {pg pg' : PG}

/-! ## What is held of an entry -/

def PG.linesOf (pg : PG) (id : UUID) : List LineRow := pg.lines.filter fun l => decide (l.journalEntryID = id)

/-- The rows of the lines of an entry; a line whose account does not exist has none. -/
def JournalEntry.lineRows (e : JournalEntry) : List (Option LineRow) :=
  e.lines.map fun l => (resolve accounts true l).map (l.row e.id)

/-- **Postgres holds an entry**: one journal row with its ID, and attached to it the lines of the
entry, each once. -/
def PG.Holds (pg : PG) (e : JournalEntry) : Prop :=
  (pg.journal.map (·.id)).count e.id = 1 ∧ ((pg.linesOf e.id).map some).Perm (e.lineRows accounts)

instance (pg : PG) (e : JournalEntry) : Decidable (pg.Holds accounts e) := inferInstanceAs (Decidable (_ ∧ _))

/-! ## One call -/

/-- The lines of an entry whose accounts are found, as they are inserted. -/
def found (x : Answers) (entryID : UUID) : ℕ → List Line → List LineRow
  | _, [] => []
  | i, l :: ls => ((resolve accounts (x.accounts i) l).map (l.row entryID)).toList ++ found x entryID (i + 1) ls

theorem found_journalEntryID {entryID : UUID} {i : ℕ} {ls : List Line} :
    ∀ row ∈ found accounts x entryID i ls, row.journalEntryID = entryID := by
  induction ls generalizing i with
  | nil => exact fun row h => absurd h not_mem_nil
  | cons l ls ih =>
    intro row h
    rcases mem_append.1 h with h | h
    · obtain ⟨accountID, -, rfl⟩ := Option.map_eq_some_iff.1 (Option.mem_toList.1 h)
      rfl
    · exact ih row h

theorem syncLines_ok {entryID : UUID} {i : ℕ} {ls : List Line} (h : syncLines accounts x entryID i ls pg = (true, pg')) :
    pg' = { pg with lines := pg.lines ++ found accounts x entryID i ls } := by
  induction ls generalizing i pg with
  | nil =>
    obtain rfl : pg = pg' := (Prod.mk.inj h).2
    rw [found, append_nil]
  | cons l ls ih =>
    rw [syncLines] at h
    rw [found]
    cases hacc : resolve accounts (x.accounts i) l with
    | none =>
      rw [hacc] at h
      exact ih h
    | some accountID =>
      rw [hacc] at h
      dsimp only at h
      by_cases hline : x.line i l = .ok
      · rw [if_pos hline, hline] at h
        rw [ih h]
        show PG.mk _ (pg.lines ++ [l.row entryID accountID] ++ _) = PG.mk _ (pg.lines ++ ([l.row entryID accountID] ++ _))
        rw [append_assoc]
        rfl
      · rw [if_neg hline] at h
        exact absurd (Prod.mk.inj h).1 Bool.false_ne_true

/-- **A call that succeeds** has inserted one journal row and the lines whose accounts were
found. -/
theorem syncJournalEntry_ok (h : syncJournalEntry accounts e x pg = (true, pg')) :
    pg' = ⟨pg.journal ++ [e.row x.journalID], pg.lines ++ found accounts x e.id 0 e.lines⟩ := by
  unfold syncJournalEntry at h
  by_cases hj : x.journal = .ok
  · rw [if_pos hj, hj] at h
    rw [syncLines_ok accounts h]
    rfl
  · rw [if_neg hj] at h
    exact absurd (Prod.mk.inj h).1 Bool.false_ne_true

/-- With the ID drawn now, the ID of the entry is that of one journal row; and the lines attached to
it already and those whose accounts are found now are the lines of the entry. -/
def Fits (pg : PG) (e : JournalEntry) (x : Answers) : Prop :=
  (pg.journal.map (·.id)).count e.id + (if x.journalID = e.id then 1 else 0) = 1 ∧
    ((pg.linesOf e.id ++ found accounts x e.id 0 e.lines).map some).Perm (e.lineRows accounts)

theorem holds_iff_fits (h : syncJournalEntry accounts e x pg = (true, pg')) :
    pg'.Holds accounts e ↔ Fits accounts pg e x := by
  have hids : (pg'.journal.map (·.id)).count e.id =
      (pg.journal.map (·.id)).count e.id + (if x.journalID = e.id then 1 else 0) := by
    rw [syncJournalEntry_ok accounts h]
    rw [map_append, count_append]
    congr 1
    show List.count e.id [x.journalID] = _
    rw [count_singleton]
    simp only [beq_iff_eq]
  have hlines : pg'.linesOf e.id = pg.linesOf e.id ++ found accounts x e.id 0 e.lines := by
    rw [syncJournalEntry_ok accounts h]
    show List.filter _ (pg.lines ++ found accounts x e.id 0 e.lines) = _
    rw [filter_append]
    congr 1
    exact filter_eq_self.2 fun row hrow => decide_eq_true (found_journalEntryID accounts row hrow)
  unfold PG.Holds Fits
  rw [hids, hlines]

/-! ## Runs -/

/-- Every entry that was counted had a call that returned without an error. -/
def Consumer.Counted (s : Consumer) : Prop :=
  ∀ c ∈ s.synced, syncJournalEntry accounts c.entry c.answers c.before = (true, c.after)

variable {accounts} {s : Consumer}

theorem counted_congr {s' : Consumer} (h : s.Counted accounts) (hsynced : s'.synced = s.synced) : s'.Counted accounts := by
  unfold Consumer.Counted
  rw [hsynced]
  exact h

theorem counted_send (h : s.Counted accounts) (e : JournalEntry) : (s.send e).Counted accounts := by
  unfold Consumer.send
  split <;> exact counted_congr h rfl

theorem counted_pass (xs : ℕ → Answers) {i : ℕ} {es : List JournalEntry} (h : s.Counted accounts) :
    (s.pass accounts xs i es).2.Counted accounts := by
  induction es generalizing i s with
  | nil => exact h
  | cons e es ih =>
    rw [Consumer.pass]
    rcases hcall : syncJournalEntry accounts e (xs i) s.pg with ⟨ok, pg⟩
    cases ok with
    | false => exact ih (counted_congr h rfl)
    | true =>
      exact ih (forall_mem_snoc h hcall)

theorem counted_flush (xs : ℕ → ℕ → Answers) (batch : List JournalEntry) (h : s.Counted accounts) :
    (s.flush accounts xs batch).Counted accounts :=
  counted_congr (counted_pass (xs 2) (counted_pass (xs 1) (counted_pass (xs 0) h))) rfl

theorem counted_step (s : Consumer) (i : Step) (h : s.Counted accounts) : (s.step accounts i).Counted accounts := by
  cases i with
  | enqueue e => exact counted_send h e
  | receive xs =>
    simp only [Consumer.step]
    split
    · split
      · exact counted_flush xs _ (counted_congr h rfl)
      · exact counted_congr h rfl
    · exact h
  | tick xs | stop xs =>
    simp only [Consumer.step]
    split
    · exact h
    · exact counted_flush xs _ (counted_congr h rfl)
  | requeue =>
    simp only [Consumer.step]
    split
    · exact h
    · next e failed hfailed => exact counted_send (s := { s with failed }) (counted_congr h rfl) e

/-- The consumer after some steps, over tables that hold anything at the start. -/
def consume (accounts : String → Option UUID) (batchSize queueSize : ℕ) (pg : PG) (steps : List Step) : Consumer :=
  run (Consumer.step accounts) (newSyncConsumer batchSize queueSize pg) steps

/-- **Whether the read model is complete** when an entry is counted as synced: exactly if each call
that was counted fits. -/
theorem read_model_iff (accounts : String → Option UUID) (batchSize queueSize : ℕ) (pg : PG) (steps : List Step) :
    (∀ c ∈ (consume accounts batchSize queueSize pg steps).synced, c.after.Holds accounts c.entry) ↔
      ∀ c ∈ (consume accounts batchSize queueSize pg steps).synced, Fits accounts c.before c.entry c.answers :=
  forall₂_congr fun c hc =>
    holds_iff_fits accounts (run_invariant counted_step (fun _ hc => absurd hc not_mem_nil) steps c hc)

def feeEntry : JournalEntry where
  id := 1
  idempotencyKey := "fee"
  lines := [
    { accountCode := "tenant:lemfi:fees", entryType := .debit, amount := 1, currency := "USD", description := "", id := 2 },
    { accountCode := "fees", entryType := .credit, amount := 1, currency := "USD", description := "", id := 3 }]

def chart (code : String) : Option UUID :=
  if code = "tenant:lemfi:fees" then some 4 else if code = "fees" then some 5 else none

/-- **No statement fails**, and the entry is counted as synced. Its lines are attached to an ID
that no journal row has. -/
theorem synced_without_journal_row :
    ∃ c ∈ (consume chart 1 10 {} [.enqueue feeEntry, .receive fun _ _ => { journalID := 9 }]).synced,
      c.entry = feeEntry ∧ ¬ c.after.Holds chart feeEntry :=
  ⟨⟨feeEntry, _, _, _⟩, mem_singleton.2 rfl, rfl, by decide +kernel⟩

-- The insert of the second line fails once: the first is attached twice, whatever IDs are drawn.
example : ∃ c ∈ (consume chart 1 10 {} [.enqueue feeEntry,
      .receive fun n _ =>
        { journalID := if n = 0 then 8 else 1, lines := fun i => if n = 0 ∧ i = 1 then .error else .ok }]).synced,
    c.entry = feeEntry ∧ (c.after.linesOf 1).map (·.accountID) = [4, 4, 5] :=
  ⟨⟨feeEntry, _, _, _⟩, mem_singleton.2 rfl, rfl, by decide +kernel⟩

end Settla.Ledger.Sync
