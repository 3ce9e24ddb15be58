import Settla.Treasury.Manager

/-!
# The operations on int64 counters

The operations of `Treasury.Manager` once more, with each result of the arithmetic passed through `rd`:
the code is the case `rd = wrap64`.
-/

namespace Settla.Treasury

def wrap64 (x : ℤ) : ℤ := x.bmod (2 ^ 64)

section

variable (rd : ℤ → ℤ)

/-- `balance - locked - reserved`, from left to right. -/
def PositionState.availableWith (ps : PositionState) : ℤ :=
  rd (rd (ps.balanceMicro - ps.lockedMicro) - ps.reservedMicro)

def addWith (n a x : ℤ) : ℤ := if n = 0 then x else rd (x + n * a)

def Effect.applyWith (f : Effect) (a : ℤ) (ps : PositionState) : PositionState :=
  { ps with
    balanceMicro := addWith rd f.balance a ps.balanceMicro
    lockedMicro := addWith rd f.locked a ps.lockedMicro
    reservedMicro := addWith rd f.reserved a ps.reservedMicro }

def Manager.queueEventWith (m : Manager) (now : Time) (k : PositionKey) (ps : PositionState)
    (ev : PositionEventType) (amount : Decimal) (reference : UUID) (refType : String) : Manager :=
  if m.pendingEvents.length < pendingEventsCap then
    { m with pendingEvents := m.pendingEvents ++ [{
        positionID := ps.id
        tenantID := k.tenantID
        eventType := ev
        amount := amount
        balanceAfter := fromMicro ps.balanceMicro
        lockedAfter := fromMicro (rd (ps.lockedMicro + ps.reservedMicro))
        referenceID := reference
        referenceType := refType
        recordedAt := now }] }
  else m

def Manager.checkMinimumWith (m : Manager) (k : PositionKey) (ps : PositionState) : Manager :=
  if fromMicro (ps.availableWith rd) < ps.minBalance ∧ ps.minBalance ≠ 0 then
    { m with alerts := m.alerts ++ [k] }
  else m

def needAvailableWith (k : PositionKey) (ps : PositionState) (a : ℤ) (_ : UUID) : Option Err :=
  if ps.availableWith rd < a then some (.insufficientFunds k.currency k.location) else none

def guardWith : ReserveOpType → PositionKey → PositionState → ℤ → UUID → Option Err
  | .reserve => needAvailableWith rd
  | .debit => needAvailableWith rd
  | .release => releaseSpec.guard
  | .commit => commitSpec.guard
  | .consume => consumeSpec.guard
  | .credit => creditSpec.guard

def OpSpec.updateWith (o : OpSpec) (m : Manager) (now : Time) (k : PositionKey) (ps : PositionState)
    (amount : Decimal) (ref : UUID) (refType : String) : Manager :=
  let m := (m.setPosition k ps).markDirty k
  match o.event with
  | some ev => m.queueEventWith rd now k ps ev amount ref refType
  | none => m

def OpSpec.finishWith (o : OpSpec) (w : World) (e : CallEnv) (k : PositionKey) (amount : Decimal)
    (a : ℤ) (ps : PositionState) : World × Result :=
  let alerted (m : Manager) := if o.alert then m.checkMinimumWith rd k ps else m
  if o.sync ≠ .none ∧ w.mgr.isLarge k.currency amount then
    match w.syncFlushPosition e k ps with
    | (w', true) => ({ w' with mgr := alerted w'.mgr }, .nil)
    | (w', false) =>
      match o.sync with
      | .rollback =>
        ({ w' with mgr := w'.mgr.setPosition k (o.effect.applyWith rd (-a) ps) },
          .err (.syncFlushFailed o.op amount ps.id))
      | _ => (w', .nil)
  else ({ w with mgr := alerted w.mgr }, .nil)

def opBodyWith (kind : ReserveOpType) (w : World) (e : CallEnv) (k : PositionKey) (amount : Decimal)
    (ref : UUID) (refType : String) : World × Result :=
  let o := specOf kind
  match w.mgr.positions k with
  | none => (w, .err (.insufficientFunds k.currency k.location))
  | some ps =>
    match toMicro amount with
    | none => (w, .panic)
    | some a =>
      match guardWith rd kind k ps a ref with
      | some err => (w, .err err)
      | none =>
        let ps' := o.effect.applyWith rd a ps
        let w₁ : World := { w with mgr := o.updateWith rd w.mgr e.now k ps' amount ref refType }
        match w₁.logOp e k amount ref o.op with
        | (w₂, some err) => ({ w₂ with mgr := w₂.mgr.setPosition k (o.effect.applyWith rd (-a) ps') }, .err err)
        | (w₂, none) => o.finishWith rd w₂ e k amount a ps'

def runOpWith (kind : ReserveOpType) (w : World) (e : CallEnv) (k : PositionKey) (amount : Decimal)
    (ref : UUID) (refType : String) : World × Result :=
  checked (specOf kind) w e.now amount ref fun w => opBodyWith rd kind w e k amount ref refType

def World.updateBalanceWith (w : World) (k : PositionKey) (newBalance : Decimal) : World × Result :=
  match toMicro newBalance with
  | none => (w, .err (.exceedsMaximum newBalance))
  | some v =>
    match w.mgr.positions k with
    | none => (w, .err (.insufficientFunds k.currency k.location))
    | some ps =>
      if v < rd (ps.lockedMicro + ps.reservedMicro) then
        (w, .err (.belowCommitted newBalance ps.lockedMicro ps.reservedMicro))
      else
        ({ w with mgr := (w.mgr.setPosition k { ps with balanceMicro := v }).markDirty k }, .nil)

end

/-- Execute a call, with each result of the arithmetic passed through `rd`. -/
def World.execWith (rd : ℤ → ℤ) (w : World) (e : CallEnv) : Call → World × Result
  | .op kind k amount ref refType => runOpWith rd kind w e k amount ref (kind.refType refType)
  | .updateBalance k newBalance => w.updateBalanceWith rd k newBalance

def World.exec64 (w : World) (e : CallEnv) (c : Call) : World × Result := w.execWith wrap64 e c

end Settla.Treasury
