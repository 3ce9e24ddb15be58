import Settla.Domain.Ledger
import Settla.Lib.Chains

/-!
# Journal entries as TigerBeetle transfers

The ID of a transfer is a hash of the ID of the journal entry and its position; the idempotency key
only goes along as user data. TigerBeetle applies an ID at most once and a linked chain as a whole;
`refuses` are its other checks.
-/

namespace Settla.Ledger

open Lib

abbrev ID128 := BitVec 128

def hash128 (s : String) : ID128 := BitVec.ofNat 128 (ofBytes ((sha256 (utf8 s)).take 16))

def accountIDFromCode (code : String) : ID128 := hash128 code

def generateTransferID (entryID : UUID) (index : ℕ) : ID128 := hash128 (entryID.string ++ ":" ++ toString index)

structure Entry where
  id : UUID
  idempotencyKey : String
  lines : List EntryLine

inductive PostErr
  | validating (e : LedgerErr)
  | ensuringAccounts
  /-- "converting amount for pair ...": it is negative -/
  | negativeAmount (pair : ℕ) (amount : Decimal)
  | noTransfers (id : UUID)
  | write

def amountScale : Decimal := 100000000

/-- `DecimalToTBAmount`. Of an amount that does not fit, the lowest 64 bits are kept. -/
def decimalToTBAmount (d : Decimal) : Option ℕ :=
  let scaled := truncPlaces 8 d * amountScale
  if scaled < 0 then none else some ((intPart scaled).toNat % 2 ^ 64)

/-- `TBAmountToDecimal`. The units go through a signed integer. -/
def tbAmountToDecimal (amount : UInt64) : Decimal := roundPlaces 16 (amount.toInt64.toInt / amountScale)

/-- `TBTransfer`; of its flags only `TBFlagLinked` is used. -/
structure TBTransfer where
  (id debitAccountID creditAccountID userData128 : ID128)
  (amount ledger code : ℕ)
  linked : Bool

def side (type : EntryType) (lines : List EntryLine) : List EntryLine := lines.filter (·.entryType = type)

def remaining (line : EntryLine) (amount : Decimal) (lines : List EntryLine) : List EntryLine :=
  if line.amount - amount = 0 then lines else { line with amount := line.amount - amount } :: lines

/-- One of two lines is used up by the smaller of their amounts. -/
theorem remaining_length_lt (d c : EntryLine) (ds cs : List EntryLine) :
    let amount := if c.amount < d.amount then c.amount else d.amount
    (remaining d amount ds).length + (remaining c amount cs).length < (d :: ds).length + (c :: cs).length := by
  intro amount
  have hle : ∀ (l : EntryLine) (ls : List EntryLine), (remaining l amount ls).length ≤ ls.length + 1 := by
    intro l ls
    unfold remaining
    split <;> simp
  have hd := hle d ds
  have hc := hle c cs
  rw [List.length_cons, List.length_cons]
  by_cases h : c.amount < d.amount
  · have hused : (remaining c amount cs).length = cs.length := by simp [remaining, amount, h]
    omega
  · have hused : (remaining d amount ds).length = ds.length := by simp [remaining, amount, h]
    omega

/-- The loop of `buildTransfers`: the first debit against the first credit, as far as the smaller
amount goes. -/
def matchLines (ledger : ℕ) (entry : Entry) (idx : ℕ) (debits credits : List EntryLine) :
    Except PostErr (List TBTransfer) :=
  match debits, credits with
  | d :: debits, c :: credits =>
    let amount := if c.amount < d.amount then c.amount else d.amount
    have := remaining_length_lt d c debits credits
    match decimalToTBAmount amount with
    | none => .error (.negativeAmount idx amount)
    | some tbAmount => do
      let transfers ← matchLines ledger entry (idx + 1) (remaining d amount debits) (remaining c amount credits)
      return { id := generateTransferID entry.id idx
               debitAccountID := accountIDFromCode d.accountCode
               creditAccountID := accountIDFromCode c.accountCode
               userData128 := accountIDFromCode entry.idempotencyKey
               amount := tbAmount
               ledger := ledger
               code := 1
               linked := false } :: transfers
  | _, _ => .ok []
termination_by debits.length + credits.length

def link : List TBTransfer → List TBTransfer
  | t :: t' :: ts => { t with linked := true } :: link (t' :: ts)
  | ts => ts

def buildTransfers (ledger : ℕ) (entry : Entry) (debits credits : List EntryLine) :
    Except PostErr (List TBTransfer) :=
  link <$> matchLines ledger entry 0 debits credits

def transfers (ledger : ℕ) (entry : Entry) : Except PostErr (List TBTransfer) := do
  let ts ← buildTransfers ledger entry (side .debit entry.lines) (side .credit entry.lines)
  if ts = [] then .error (.noTransfers entry.id) else return ts

/-- TigerBeetle, with the checks it makes besides those of IDs and chains. -/
def events (refuses : TBTransfer → Bool) : Events TBTransfer ID128 := ⟨(·.id), (·.linked), refuses⟩

def posted (account : ID128) (store : List TBTransfer) : ℕ × ℕ :=
  (((store.filter (·.debitAccountID = account)).map (·.amount)).sum,
    ((store.filter (·.creditAccountID = account)).map (·.amount)).sum)

end Settla.Ledger
