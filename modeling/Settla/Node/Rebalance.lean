import Settla.Core.Position
import Settla.Treasury.Machine
import Settla.Treasury.Recovery

/-!
# The rebalance worker

Positions below their minimum get money from other positions of the tenant. A move is a withdrawal and
a top-up, two requests that know nothing of each other; the treasury worker executes their intents
later. A cycle interleaves with all other work of the treasury.
-/

namespace Settla.Rebalance

open Treasury Position Lib.Threads

/-- A move of the worker: the amount, the withdrawal, and the top-up if it was created. The
source keeps no such record. -/
structure Pair where
  tenantID : UUID
  currency : Currency
  amount : Decimal
  withdrawal : UUID
  topUp : Option UUID
  deriving DecidableEq

def Pair.ids (p : Pair) : List UUID := p.withdrawal :: p.topUp.toList

/-- What the components share. The last two fields record what was done. -/
structure Desk where
  treasury : World
  /-- `tenantIndex` of the manager -/
  tenantIndex : UUID → List PositionKey
  targetBalance : PositionKey → Decimal
  db : PositionDB
  /-- `recentRebalances`, by position -/
  recentRebalances : List (UUID × Time)
  /-- the moves of the worker -/
  pairs : List Pair
  /-- the transactions whose debit or credit has changed a balance -/
  applied : List UUID

/-- What a step meets outside: the clock, how a call ended, a new UUID, the store and the log of the treasury, and
the counters that another call on the position leaves if it overlaps with this one. -/
structure Answer where
  now : Time := 0
  reply : Reply := .ok
  id : UUID := 0
  call : CallEnv := ⟨0, .ok, true, .ok⟩
  overlap : Option PositionState := none

namespace Desk

variable (s : Desk)

def getPosition (k : PositionKey) : Option Position :=
  (s.treasury.mgr.positions k).map (snapshot k (s.targetBalance k))

def getPositions (tenantID : UUID) : List Position := (s.tenantIndex tenantID).filterMap s.getPosition

/-! ## Cooldowns -/

def cooldown : Time := 5 * minute

def isOnCooldown (now : Time) (id : UUID) : Bool :=
  (s.recentRebalances.find? (·.1 = id)).any fun it => now - it.2 < cooldown

def setCooldown (now : Time) (id : UUID) : Desk :=
  { s with recentRebalances := (id, now) :: s.recentRebalances.filter (·.1 ≠ id) }

def cleanupCooldowns (now : Time) : Desk :=
  { s with recentRebalances := s.recentRebalances.filter fun it => !decide (cooldown * 2 < now - it.2) }

/-! ## Requests -/

/-- `RequestWithdrawal` as the worker calls it, and whether it succeeds. -/
def withdraw (a : Answer) (tenantID : UUID) (source dest : Position) (amount : Decimal) : Desk × Bool :=
  match requestWithdrawal (s.getPosition ⟨tenantID, source.currency, source.location⟩) a.id tenantID
    { currency := source.currency, location := source.location, amount, method := "internal",
      destination := dest.currency ++ ":" ++ dest.location } with
  | .error _ => (s, false)
  | .ok (tx, intent) =>
    if a.reply.applied then
      ({ s with db := s.db.createWithOutbox tx intent
                pairs := s.pairs ++ [⟨tenantID, source.currency, amount, a.id, none⟩] }, a.reply = .ok)
    else (s, false)

/-- `RequestTopUp` as the worker calls it after the withdrawal `w`. -/
def topUp (a : Answer) (tenantID w : UUID) (dest : Position) (amount : Decimal) : Desk × Bool :=
  match requestTopUp (s.getPosition ⟨tenantID, dest.currency, dest.location⟩) a.id tenantID
    { currency := dest.currency, location := dest.location, amount, method := "internal" } with
  | .error _ => (s, false)
  | .ok (tx, intent) =>
    if a.reply.applied then
      ({ s with db := s.db.createWithOutbox tx intent
                pairs := s.pairs.map fun p => if p.withdrawal = w then { p with topUp := some a.id } else p }, a.reply = .ok)
    else (s, false)

end Desk

/-! ## The treasury worker -/

def opOf : TxType → ReserveOpType
  | .topUp => .credit
  | .withdrawal => .debit

def keyOf (i : PositionIntent) : PositionKey := ⟨i.tenantID, i.currency, i.location⟩

def balanceOf (w : World) (k : PositionKey) : ℤ := (w.mgr.balanceAt k).getD 0

/-- A call of the treasury. What calls on one position that overlap do to it depends on how their loads and stores
interleave: it is left with any counters. -/
def callTreasury (w : World) (a : Answer) (e : CallEnv) (c : Call) : World :=
  let w := (w.exec64 e c).1
  match a.overlap with
  | none => w
  | some m => { w with mgr := w.mgr.setPosition c.position m }

def perform (w : World) (a : Answer) : Activity → World
  | .call e c => callTreasury w a e c
  | act => w.next act

def callOf (i : PositionIntent) : Call := .op (opOf i.type) (keyOf i) i.amount i.reference i.refType

/-- Call the treasury, then publish the result or the error; only a failed publication makes the
intent come again. -/
def Desk.deliver (s : Desk) (a : Answer) (reference : UUID) : Desk :=
  match s.db.outbox.find? (·.reference = reference) with
  | none => s
  | some i =>
    let w := callTreasury s.treasury a a.call (callOf i)
    { s with
      treasury := w
      applied := if balanceOf w (keyOf i) ≠ balanceOf s.treasury (keyOf i) then i.reference :: s.applied else s.applied
      db := if a.reply = .ok then { s.db with outbox := s.db.outbox.filter (·.reference ≠ reference) } else s.db }

/-! ## The worker -/

def deficitOf (pos : Position) : Decimal :=
  let deficit := pos.targetBalance - pos.balance
  if 0 < deficit then deficit else pos.minBalance - pos.balance

def surplusOf (candidate : Position) : Decimal :=
  let threshold := if candidate.targetBalance = 0 then candidate.minBalance else candidate.targetBalance
  candidate.available - threshold

def findSurplusPosition (s : Desk) (now : Time) (positions : List Position) (deficit : Position) (amount : Decimal) :
    Option Position :=
  positions.find? fun candidate =>
    candidate.id ≠ deficit.id ∧ ¬ s.isOnCooldown now candidate.id ∧ candidate.currency = deficit.currency ∧
      amount ≤ surplusOf candidate

inductive Point
  | getPositions (tenantID : UUID)
  | check (pos : Position)
  | withdraw (tenantID : UUID) (source dest : Position) (amount : Decimal)
  | topUp (tenantID w : UUID) (source dest : Position) (amount : Decimal)
  | cool (positions : List UUID)
  | cleanup
  | deliver (reference : UUID)
  | result (type : TxType) (tenantID txID : UUID) (success : Bool) (reason : String)
  | activity (a : Activity)

def Point.effect (a : Answer) (s : Desk) : Point → Desk
  | .getPositions _ => s
  | .check _ => s
  | .withdraw tenantID source dest amount => (s.withdraw a tenantID source dest amount).1
  | .topUp tenantID w _ dest amount => (s.topUp a tenantID w dest amount).1
  | .cool positions => positions.foldl (fun s id => s.setCooldown a.now id) s
  | .cleanup => s.cleanupCooldowns a.now
  | .deliver reference => s.deliver a reference
  | .result type tenantID txID success reason =>
    match handleResult type s.db tenantID txID success reason with
    | .error _ => s
    | .ok db => if a.reply.applied then { s with db } else s
  | .activity act => { s with treasury := perform s.treasury a act }

abbrev Steps := Prog Desk Answer Point Unit

def step (g : Point) (k : Answer → Desk → Steps) : Steps := .act g (fun a s => g.effect a s) k

/-- `triggerRebalance`: only if both requests succeed are the positions put on cooldown. -/
def triggerRebalance (tenantID : UUID) (source dest : Position) (amount : Decimal) (k : Steps) : Steps :=
  step (.withdraw tenantID source dest amount) fun a s =>
    if (s.withdraw a tenantID source dest amount).2 then
      step (.topUp tenantID a.id source dest amount) fun b s =>
        if (s.topUp b tenantID a.id dest amount).2 then step (.cool [source.id, dest.id]) fun _ _ => k else k
    else k

/-- The loop of `checkTenant`. A low position without a source is reported, which sets its
cooldown as well. -/
def checkPositions (tenantID : UUID) (positions : List Position) (k : Steps) : List Position → Steps
  | [] => k
  | pos :: rest =>
    if pos.minBalance = 0 ∨ pos.isAboveMinimum then checkPositions tenantID positions k rest
    else
      step (.check pos) fun a s =>
        if s.isOnCooldown a.now pos.id ∨ ¬ 0 < deficitOf pos then checkPositions tenantID positions k rest
        else
          match findSurplusPosition s a.now positions pos (deficitOf pos) with
          | some source => triggerRebalance tenantID source pos (deficitOf pos) (checkPositions tenantID positions k rest)
          | none => step (.cool [pos.id]) fun _ _ => checkPositions tenantID positions k rest

/-- `runCycle` over the tenants it is given. -/
def runCycle : List UUID → Steps
  | [] => step .cleanup fun _ _ => .ret ()
  | tenantID :: rest =>
    step (.getPositions tenantID) fun a s =>
      if a.reply = .ok then checkPositions tenantID (s.getPositions tenantID) (runCycle rest) (s.getPositions tenantID)
      else runCycle rest

inductive Task
  | cycle (tenantIDs : List UUID)
  | deliver (reference : UUID)
  | result (type : TxType) (tenantID txID : UUID) (success : Bool) (reason : String)
  | activity (a : Activity)

def program : Task → Steps
  | .cycle tenantIDs => runCycle tenantIDs
  | .deliver reference => step (.deliver reference) fun _ _ => .ret ()
  | .result type tenantID txID success reason => step (.result type tenantID txID success reason) fun _ _ => .ret ()
  | .activity a => step (.activity a) fun _ _ => .ret ()

abbrev Shop := System Desk Answer Point Unit

end Settla.Rebalance
