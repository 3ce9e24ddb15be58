import Settla.Ledger.Service

/-!
# Copying journal entries to Postgres

`SyncConsumer` writes posted entries to Postgres in batches, without a transaction. The insert does
not set the ID of the entry, so the database draws it; the lines carry the ID of the entry. Both
unique indexes contain `posted_at`, so that no insert is refused.
-/

namespace Settla.Ledger.Sync

open Lib.Threads

/-- `EntryLine`, with the account ID that `SyncJournalEntry` reads. -/
structure Line extends EntryLine where
  accountID : UUID := UUID.nil

/-- `JournalEntry`. Times are in nanoseconds; `effectiveDate` is `none` for the zero time. -/
structure JournalEntry where
  id : UUID
  tenantID : Option UUID := none
  idempotencyKey : String
  effectiveDate : Option ℕ := none
  description : String := ""
  referenceType : String := ""
  referenceID : Option UUID := none
  reversalOf : Option UUID := none
  lines : List Line
  metadata : Option (List (String × String)) := none

structure JournalRow where
  id : UUID
  tenantID : Option UUID
  idempotencyKey : Option String
  effectiveDate : Option ℕ
  description : String
  referenceType : Option String
  (referenceID reversalOf : Option UUID)
  metadata : Option (List (String × String))

structure LineRow where
  (journalEntryID accountID : UUID)
  entryType : EntryType
  amount : Decimal
  currency : Currency
  description : Option String
  deriving DecidableEq

structure PG where
  journal : List JournalRow := []
  lines : List LineRow := []

def textToPgtype (s : String) : Option String := if s = "" then none else some s

def JournalEntry.row (e : JournalEntry) (id : UUID) : JournalRow where
  id := id
  tenantID := e.tenantID
  idempotencyKey := textToPgtype e.idempotencyKey
  effectiveDate := e.effectiveDate
  description := e.description
  referenceType := textToPgtype e.referenceType
  referenceID := e.referenceID
  reversalOf := e.reversalOf
  metadata := e.metadata

def Line.row (l : Line) (journalEntryID accountID : UUID) : LineRow where
  journalEntryID := journalEntryID
  accountID := accountID
  entryType := l.entryType
  amount := numeric8 l.amount
  currency := l.currency
  description := textToPgtype l.description

/-! ## One entry -/

/-- The answers to one call of `SyncJournalEntry`: to the insert of the journal row, with the ID
drawn for it, and for the line at each position. -/
structure Answers where
  journal : Reply := .ok
  journalID : UUID
  accounts : ℕ → Bool := fun _ => true
  lines : ℕ → Reply := fun _ => .ok

variable (accounts : String → Option UUID)

def resolve (readable : Bool) (l : Line) : Option UUID :=
  if l.accountID = UUID.nil ∧ l.accountCode ≠ "" then
    if readable then accounts l.accountCode else none
  else some l.accountID

/-- The answer to the insert of a line, whose type a constraint of the table checks. -/
def Answers.line (x : Answers) (i : ℕ) (l : Line) : Reply :=
  if l.entryType.string ∈ ["DEBIT", "CREDIT"] then x.lines i else .error

def syncLines (x : Answers) (entryID : UUID) : ℕ → List Line → PG → Bool × PG
  | _, [], pg => (true, pg)
  | i, l :: ls, pg =>
    match resolve accounts (x.accounts i) l with
    -- "account not found for sync, skipping line"
    | none => syncLines x entryID (i + 1) ls pg
    | some accountID =>
      let pg := if (x.line i l).applied then { pg with lines := pg.lines ++ [l.row entryID accountID] } else pg
      if x.line i l = .ok then syncLines x entryID (i + 1) ls pg else (false, pg)

/-- `SyncJournalEntry`: whether it returns without an error, and the tables after it. -/
def syncJournalEntry (e : JournalEntry) (x : Answers) (pg : PG) : Bool × PG :=
  let pg := if x.journal.applied then { pg with journal := pg.journal ++ [e.row x.journalID] } else pg
  if x.journal = .ok then syncLines accounts x e.id 0 e.lines pg else (false, pg)

/-! ## The consumer -/

/-- An entry that `flush` counts as synced, with the tables before and after its call. -/
structure Synced where
  entry : JournalEntry
  answers : Answers
  (before after : PG)

/-- `SyncConsumer`, with its tables. `failed` are the entries that `flush` still has to put back
into the queue. -/
structure Consumer where
  (batchSize capacity : ℕ)
  pg : PG
  queue : List JournalEntry := []
  batch : List JournalEntry := []
  failed : List JournalEntry := []
  done : Bool := false
  droppedTotal : ℕ := 0
  syncFailedTotal : ℕ := 0
  synced : List Synced := []

def newSyncConsumer (batchSize queueSize : ℕ) (pg : PG) : Consumer where
  batchSize := batchSize
  capacity := if queueSize = 0 then 50000 else queueSize
  pg := pg

/-- Send to the queue, or drop the entry if it is full. -/
def Consumer.send (s : Consumer) (e : JournalEntry) : Consumer :=
  if s.queue.length < s.capacity then { s with queue := s.queue ++ [e] }
  else { s with droppedTotal := s.droppedTotal + 1 }

/-- One pass of `flush`: those that failed, and the consumer after it. The entry at position `i`
gets `xs i`. -/
def Consumer.pass (xs : ℕ → Answers) : ℕ → List JournalEntry → Consumer → List JournalEntry × Consumer
  | _, [], s => ([], s)
  | i, e :: es, s =>
    match syncJournalEntry accounts e (xs i) s.pg with
    | (true, pg) => Consumer.pass xs (i + 1) es { s with pg, synced := s.synced ++ [⟨e, xs i, s.pg, pg⟩] }
    | (false, pg) =>
      let (failed, s) := Consumer.pass xs (i + 1) es { s with pg }
      (e :: failed, s)

/-- `flush` up to the loop that puts entries back: the batch, and two more passes over what
failed. -/
def Consumer.flush (xs : ℕ → ℕ → Answers) (batch : List JournalEntry) (s : Consumer) : Consumer :=
  let (failed, s) := s.pass accounts (xs 0) 0 batch
  let (failed, s) := s.pass accounts (xs 1) 0 failed
  let (failed, s) := s.pass accounts (xs 2) 0 failed
  { s with failed := failed, syncFailedTotal := s.syncFailedTotal + failed.length }

/-- What happens to a consumer. The passes of a flush get the answers `xs`. -/
inductive Step
  /-- `Enqueue`. -/
  | enqueue (e : JournalEntry)
  /-- The loop of `run` receives an entry. -/
  | receive (xs : ℕ → ℕ → Answers)
  /-- The ticker fires. -/
  | tick (xs : ℕ → ℕ → Answers)
  /-- The end of `flush` puts a failed entry back. -/
  | requeue
  /-- `Stop`. -/
  | stop (xs : ℕ → ℕ → Answers)

/-- One step. The loop of `run` goes on when `flush` has returned. -/
def Consumer.step (s : Consumer) : Step → Consumer
  | .enqueue e => s.send e
  | .receive xs =>
    match s.done || !s.failed.isEmpty, s.queue with
    | false, e :: queue =>
      let batch := s.batch ++ [e]
      if s.batchSize ≤ batch.length then { s with queue, batch := [] }.flush accounts xs batch
      else { s with queue, batch }
    | _, _ => s
  | .tick xs =>
    if s.done || !s.failed.isEmpty || s.batch.isEmpty then s
    else { s with batch := [] }.flush accounts xs s.batch
  | .requeue =>
    match s.failed with
    | [] => s
    | e :: failed => { s with failed }.send e
  | .stop xs =>
    if s.done || !s.failed.isEmpty then s
    else { s with queue := [], batch := [], done := true }.flush accounts xs (s.batch ++ s.queue)

end Settla.Ledger.Sync
