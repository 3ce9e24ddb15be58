import Settla.Lib.Atomic
import Settla.Treasury.Machine

/-!
# The operations as concurrent programs

The seven operations on one position, with every atomic access to its counters, which are machine integers, as
one step. `mu` is held by `CommitReservation` and `ConsumeReservation` only. The store never fails here; flushes and events only
read the counters and are left out, as is the circuit breaker.
-/

namespace Settla.Treasury

open Lib.Atomic

inductive Counter
  | balance | locked | reserved
  deriving DecidableEq

/-- What a call returns. A duplicate returns nil to its caller. -/
inductive Answer
  | nil | duplicate
  | err (e : Err)
  | panic

abbrev Program := Prog Counter IdempotencyKey Answer

def failWith (key : IdempotencyKey) (e : Err) : Program := .forget key (.ret (.err e))

/-- `logOp`, and the rollback if the channel stays full: undo the writes, give the key
back and fail. -/
def logged (key : IdempotencyKey) (undo : Program → Program) : Program :=
  .ask fun queued => match queued with
    | true => .ret .nil
    | false => undo (failWith key (.channelFull key.op key.reference))

section Bodies

variable (k : PositionKey) (ref : UUID) (a : ℤ)

def reserveBody : Program :=
  .loop <| .load .balance fun balance => .load .locked fun locked => .load .reserved fun currentReserved =>
    if wrap64 (wrap64 (balance - locked) - currentReserved) < a then
      failWith ⟨ref, .reserve⟩ (.insufficientFunds k.currency k.location)
    else .cas .reserved currentReserved a (logged ⟨ref, .reserve⟩ (.add .reserved (-a))) .again

def releaseBody : Program :=
  .loop <| .load .reserved fun currentReserved =>
    if currentReserved < a then
      failWith ⟨ref, .release⟩ (.reservationFailed "release amount exceeds reserved")
    else .cas .reserved currentReserved (-a) (logged ⟨ref, .release⟩ (.add .reserved a)) .again

/-- `CommitReservation`: both writes under `mu`, and both rollbacks. -/
def commitBody : Program :=
  .lock <| .load .reserved fun currentReserved =>
    if currentReserved < a then
      .unlock <| failWith ⟨ref, .commit⟩ (.insufficientReserved .commit currentReserved a ref)
    else
      .store .reserved currentReserved (-a) <| .add .locked a <| .unlock <|
      logged ⟨ref, .commit⟩ fun k => .lock <| .add .reserved a <| .add .locked (-a) <| .unlock k

/-- `ConsumeReservation`: both writes under `mu`, and both rollbacks. -/
def consumeBody : Program :=
  .lock <| .load .reserved fun currentReserved =>
    if currentReserved < a then
      .unlock <| failWith ⟨ref, .consume⟩ (.insufficientReserved .consume currentReserved a ref)
    else .load .balance fun currentBalance =>
      if currentBalance < a then
        .unlock <| failWith ⟨ref, .consume⟩ (.insufficientBalance currentBalance a ref)
      else
        .store .reserved currentReserved (-a) <| .store .balance currentBalance (-a) <| .unlock <|
        logged ⟨ref, .consume⟩ fun k => .lock <| .add .reserved a <| .add .balance a <| .unlock k

def creditBody : Program := .add .balance a (logged ⟨ref, .credit⟩ (.add .balance (-a)))

def debitBody : Program :=
  .loop <| .load .balance fun currentBalance => .load .locked fun locked => .load .reserved fun reserved =>
    if wrap64 (wrap64 (currentBalance - locked) - reserved) < a then
      failWith ⟨ref, .debit⟩ (.insufficientFunds k.currency k.location)
    else .cas .balance currentBalance (-a) (logged ⟨ref, .debit⟩ (.add .balance a)) .again

def opProgram : ReserveOpType → Program
  | .reserve => reserveBody k ref a
  | .release => releaseBody ref a
  | .commit => commitBody ref a
  | .consume => consumeBody ref a
  | .credit => creditBody ref a
  | .debit => debitBody k ref a

end Bodies

def updateProgram (newBalance : Decimal) : Program :=
  match toMicro newBalance with
  | none => .ret (.err (.exceedsMaximum newBalance))
  | some v =>
    .load .locked fun locked => .load .reserved fun reserved =>
      if v < wrap64 (locked + reserved) then .ret (.err (.belowCommitted newBalance locked reserved))
      else .assign .balance v (.ret .nil)

/-- The program of a call: the argument checks, the idempotency key, the operation. -/
def program : Call → Program
  | .op kind k amount ref _ =>
    if ¬ 0 < amount then .ret (.err (specOf kind).notPositive)
    else if (specOf kind).checksRange ∧ ¬ microInRange amount then .ret (.err (.exceedsMaximum amount))
    else
      .claim ⟨ref, kind⟩ (.ret .duplicate) <|
        match toMicro amount with
        | none => .ret .panic
        | some a => opProgram k ref a kind
  | .updateBalance _ newBalance => updateProgram newBalance

def PositionState.counter (ps : PositionState) : Counter → ℤ
  | .balance => ps.balanceMicro
  | .locked => ps.lockedMicro
  | .reserved => ps.reservedMicro

abbrev Concurrent := System Counter IdempotencyKey Answer Call

def Concurrent.start (ps : PositionState) (keys : List IdempotencyKey) (calls : List Call) : Concurrent where
  mem := ⟨ps.counter, none, keys⟩
  threads := calls.map fun c => ⟨c, program c, program c, false⟩

/-- One step. What a counter is set to wraps around. -/
def Concurrent.act : Concurrent → Action IdempotencyKey → Concurrent := System.act wrap64

def Concurrent.succeeded (s : Concurrent) : List Call :=
  (s.threads.filter fun t => match t.cur with
    | .ret .nil => true
    | _ => false).map (·.move)

end Settla.Treasury
