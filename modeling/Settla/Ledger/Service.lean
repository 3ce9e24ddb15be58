import Settla.Ledger.TigerBeetle
import Settla.Lib.Threads
import Settla.Node.LedgerWorker

/-!
# Posting journal entries

The write path of the ledger and its callers. Each of them draws a new ID for the journal entry, so a
message that is delivered again becomes another one.
-/

namespace Settla.Ledger

open Lib Lib.Threads

variable (refuses : TBTransfer → Bool) (ledger : ℕ)

/-- `tbBackend.PostEntries`. A call that reports a failed transfer has been carried out as well. -/
def tbPostEntries (entry : Entry) (reply : Reply) (store : List TBTransfer) :
    Except PostErr Unit × List TBTransfer :=
  match transfers ledger entry with
  | .error e => (.error e, store)
  | .ok ts =>
    (if reply = .ok then .ok () else .error .write,
      if reply.applied then (events refuses).create store ts else store)

/-- `resilience.Retry`: at most `n` attempts, until one succeeds. -/
def retry {σ ε : Type} (f : Reply → σ → Except ε Unit × σ) : ℕ → ε → List Reply → σ → Except ε Unit × σ
  | 0, e, _, s => (.error e, s)
  -- the context has ended
  | _ + 1, e, [], s => (.error e, s)
  | n + 1, _, r :: rs, s =>
    match f r s with
    | (.ok (), s) => (.ok (), s)
    | (.error e, s) => retry f n e rs s

/-- `Service.PostEntries`, for an entry with an ID. `ensured` says whether `EnsureAccounts`
succeeds. -/
def postEntries (entry : Entry) (ensured : Bool) (replies : List Reply) (store : List TBTransfer) :
    Except PostErr Unit × List TBTransfer :=
  match validateEntries entry.lines with
  | .error e => (.error (.validating e), store)
  | .ok () =>
    if ¬ ensured then (.error .ensuringAccounts, store)
    else retry (tbPostEntries refuses ledger entry) 3 .write replies store

/-- What `flushBatch` does to the store: the transfers of all entries are sent in one call. -/
def flushBatch (entries : List Entry) (reply : Reply) (store : List TBTransfer) : List TBTransfer :=
  let all := entries.flatMap fun entry =>
    match buildTransfers ledger entry (side .debit entry.lines) (side .credit entry.lines) with
    | .error _ => []
    | .ok ts => ts
  if reply.applied then (events refuses).create store all else store

/-- The journal entry of `Service.ReverseEntry`, from the lines of the original. -/
def reverseEntry (reversalID entryID : UUID) (original : List Posting) (reason : String) : Entry where
  id := reversalID
  idempotencyKey := "reversal:" ++ entryID.string
  lines := withIDs <| original.map fun l =>
    { l with
      entryType := if l.entryType = .debit then .credit else .debit
      description := "Reversal: " ++ reason }

/-- A message for the ledger worker, or a call of `ReverseEntry` with the lines it finds. -/
inductive Message
  | post (p : LedgerPostPayload)
  | reverse (p : LedgerPostPayload)
  | reverseEntry (entryID : UUID) (original : List Posting) (reason : String)

def Message.entry (id : UUID) : Message → Entry
  | .post p => ⟨id, (Node.handlePost p).idempotencyKey, (Node.handlePost p).lines⟩
  | .reverse p => ⟨id, (Node.handleReverse p).idempotencyKey, (Node.handleReverse p).lines⟩
  | .reverseEntry entryID original reason => Ledger.reverseEntry id entryID original reason

/-- A message that is delivered, with the ID drawn for its journal entry and the answers of
TigerBeetle. -/
structure Delivery where
  message : Message
  entryID : UUID
  ensured : Bool := true
  replies : List Reply := [.ok]

def Delivery.entry (d : Delivery) : Entry := d.message.entry d.entryID

def Delivery.key (d : Delivery) : String := d.entry.idempotencyKey

def deliver (store : List TBTransfer) (ds : List Delivery) : List TBTransfer :=
  run (fun store d => (postEntries refuses ledger d.entry d.ensured d.replies store).2) store ds

end Settla.Ledger
