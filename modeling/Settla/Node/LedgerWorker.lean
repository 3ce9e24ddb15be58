import Settla.Domain.Outbox
import Settla.Lib.Journal

/-!
# The ledger worker

Ledger intents become journal entries; `handleReverse` swaps debit and credit of every line it is
given. The ledger applies an entry once for each idempotency key.
-/

namespace Settla.Node

open Lib

structure JournalEntry where
  tenantID : UUID
  (idempotencyKey description referenceType : String)
  referenceID : UUID
  reversalOf : Option UUID
  lines : List EntryLine

def handlePost (p : LedgerPostPayload) : JournalEntry where
  tenantID := p.tenantID
  idempotencyKey := p.idempotencyKey
  description := p.description
  referenceType := p.referenceType
  referenceID := p.transferID
  reversalOf := none
  lines := withIDs p.lines

def reverseLine (l : Posting) : Posting :=
  { l with
    entryType := if l.entryType = .debit then .credit else .debit
    description := "Reversal: " ++ l.description }

def handleReverse (p : LedgerPostPayload) : JournalEntry where
  tenantID := p.tenantID
  idempotencyKey := "reverse:" ++ p.transferID.string
  description := "Reversal: " ++ p.description
  referenceType := "reversal"
  referenceID := p.transferID
  reversalOf := some p.transferID
  lines := withIDs (p.lines.map reverseLine)

/-- `LedgerWorker.handleEvent`: the journal entry an intent leads to, if any. -/
def journalEntry : Intent → Option JournalEntry
  | .ledgerPost p => some (handlePost p)
  | .ledgerReverse p => some (handleReverse p)
  | _ => none

variable (account : String) (currency : Currency)

def lineEffect (l : EntryLine) : Decimal :=
  if l.accountCode = account ∧ l.currency = currency then
    match l.entryType with
    | .credit => l.amount
    | .debit => -l.amount
    | .other _ => 0
  else 0

def JournalEntry.effect (e : JournalEntry) : Decimal :=
  (e.lines.map (lineEffect account currency)).sum

def executeLedger (deliveries : List Intent) : List JournalEntry :=
  journal (·.idempotencyKey) (deliveries.filterMap journalEntry)

def netEffect (ledger : List JournalEntry) : Decimal :=
  (ledger.map (JournalEntry.effect account currency)).sum

end Settla.Node
