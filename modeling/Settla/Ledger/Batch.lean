import Settla.Ledger.Service

/-!
# The batcher

Entries submitted within a short window go to TigerBeetle in one call, and the result codes, which
name positions in the whole batch, are distributed to the callers again.
-/

namespace Settla.Ledger

structure TBCreateResult where
  (index result : UInt32)

def tbResultOK : UInt32 := 0

def tbResultExists : UInt32 := 1

def TBCreateResult.failed (r : TBCreateResult) : Bool := r.result ≠ tbResultOK && r.result ≠ tbResultExists

inductive TBErr
  /-- "settla-ledger: building transfers" -/
  | building (e : PostErr)
  /-- "settla-ledger: posting to TigerBeetle", "batch TB write failed" -/
  | call
  /-- "settla-ledger: TB transfer at index ... failed: result code ..." -/
  | transfer (index : ℕ) (code : UInt32)

abbrev CreateAnswer := Option (List TBCreateResult)

/-- `tbBackend.PostEntries`, given the answer of TigerBeetle. -/
def tbPostEntriesWith (ledger : ℕ) (entry : Entry) (answer : CreateAnswer) : Except TBErr (List ID128) :=
  match transfers ledger entry with
  | .error e => .error (.building e)
  | .ok ts =>
    match answer with
    | none => .error .call
    | some results =>
      match results.find? (·.failed) with
      | some r => .error (.transfer r.index.toNat r.result)
      | none => .ok (ts.map (·.id))

/-! ## Flushing a batch -/

/-- The part of a batch that belongs to an entry, and what was sent to its channel. -/
structure Slot where
  (startIdx count : ℕ)
  sent : List (Except TBErr Unit)

/-- The first loop of `flushBatch`: all transfers, and where those of each entry are. -/
def collect (ledger : ℕ) (all : List TBTransfer) : List Entry → List TBTransfer × List Slot
  | [] => (all, [])
  | entry :: entries =>
    match buildTransfers ledger entry (side .debit entry.lines) (side .credit entry.lines) with
    | .error e =>
      let (all', slots) := collect ledger all entries
      (all', ⟨0, 0, [.error (.building e)]⟩ :: slots)
    | .ok ts =>
      let (all', slots) := collect ledger (all ++ ts) entries
      (all', ⟨all.length, ts.length, []⟩ :: slots)

/-- `failedIdx`: the code of the last failure at an index. -/
def failedIdx (results : List TBCreateResult) (index : UInt32) : Option UInt32 :=
  ((results.filter fun r => r.failed && r.index = index).getLast?).map (·.result)

def entryErr (results : List TBCreateResult) (slot : Slot) : Except TBErr Unit :=
  match (List.range' slot.startIdx slot.count).findSome? fun j =>
    (failedIdx results (UInt32.ofNat j)).map fun code => (j, code) with
  | some (j, code) => .error (.transfer j code)
  | none => .ok ()

/-- Send without waiting: nothing is sent to a channel that still holds a result. -/
def Slot.send (slot : Slot) (taken : Bool) (r : Except TBErr Unit) : List (Except TBErr Unit) :=
  if slot.sent.isEmpty || taken then slot.sent ++ [r] else slot.sent

/-- The results `flushBatch` sends. `taken` says which callers have one before the second loop. -/
def flushResults (ledger : ℕ) (taken : ℕ → Bool) (entries : List Entry) (answer : CreateAnswer) :
    List (List (Except TBErr Unit)) :=
  let (all, slots) := collect ledger [] entries
  if all.isEmpty then slots.map (·.sent)
  else
    match answer with
    | none => slots.mapIdx fun i slot => slot.send (taken i) (.error .call)
    | some results => slots.mapIdx fun i slot =>
      if slot.count = 0 then slot.sent else slot.send (taken i) (entryErr results slot)

end Settla.Ledger
