import Settla.Domain.Types

/-!
# Journal entries

The postings of `domain/ledger.go` and `ValidateEntries`, the check every journal
entry passes before it reaches the ledger.
-/

namespace Settla

/-- `EntryType`, a string: nothing checks that it is one of the two constants. -/
inductive EntryType
  | debit | credit
  /-- any other text -/
  | other (text : String)
  deriving DecidableEq, Repr

def EntryType.string : EntryType → String
  | .debit => "DEBIT"
  | .credit => "CREDIT"
  | .other text => text

/-- The type of a reversed line. -/
def EntryType.swap : EntryType → EntryType
  | .debit => .credit
  | _ => .debit

structure Posting where
  accountCode : String
  entryType : EntryType
  amount : Decimal
  currency : Currency
  description : String
  deriving DecidableEq

structure EntryLine extends Posting where
  id : UUID

/-- Give postings IDs. `NewV7` makes them distinct and not nil; nothing else about them is read. -/
def withIDs (lines : List Posting) : List EntryLine :=
  lines.zipIdx.map fun (p, i) => { p with id := BitVec.ofNat 128 (i + 1) }

def tenantAccountCode (tenantSlug path : String) : String := "tenant:" ++ tenantSlug ++ ":" ++ path

inductive LedgerErr
  /-- "need at least 2 lines, got ..." -/
  | tooFewLines (n : ℕ)
  /-- "line amount must be positive, got ..." -/
  | notPositive (amount : Decimal)
  /-- "duplicate line ID ..." -/
  | duplicateID (id : UUID)
  /-- "duplicate account ... with entry type ..." -/
  | duplicateAccount (accountCode : String) (entryType : EntryType)
  /-- "... debits ... != credits ..." -/
  | unbalanced (currency : Currency) (debits credits : Decimal)
  deriving DecidableEq

def Posting.accountEntryKey (p : Posting) : String := p.accountCode ++ ":" ++ p.entryType.string

/-- The first loop of `ValidateEntries`, with the line IDs and account keys seen so far. -/
def validateLines (seenIDs : List UUID) (seenAccountEntry : List String) : List EntryLine → Except LedgerErr Unit
  | [] => .ok ()
  | line :: lines =>
    if ¬ 0 < line.amount then .error (.notPositive line.amount)
    else if line.id ≠ UUID.nil ∧ line.id ∈ seenIDs then .error (.duplicateID line.id)
    else if line.accountEntryKey ∈ seenAccountEntry then
      .error (.duplicateAccount line.accountCode line.entryType)
    else
      validateLines (if line.id ≠ UUID.nil then line.id :: seenIDs else seenIDs)
        (line.accountEntryKey :: seenAccountEntry) lines

def sumLines (type : EntryType) (currency : Currency) (lines : List EntryLine) : Decimal :=
  ((lines.filter fun l => l.entryType = type ∧ l.currency = currency).map (·.amount)).sum

/-- The balance check of `ValidateEntries`: debits equal credits in every currency. -/
def validateBalance (lines : List EntryLine) : Except LedgerErr Unit :=
  match lines.find? fun l => sumLines .debit l.currency lines ≠ sumLines .credit l.currency lines with
  | some l => .error (.unbalanced l.currency (sumLines .debit l.currency lines) (sumLines .credit l.currency lines))
  | none => .ok ()

def validateEntries (lines : List EntryLine) : Except LedgerErr Unit := do
  if lines.length < 2 then throw (.tooFewLines lines.length)
  validateLines [] [] lines
  validateBalance lines

end Settla
