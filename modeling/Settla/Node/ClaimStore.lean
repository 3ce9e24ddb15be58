import Settla.Node.ProviderTx

/-!
# The two stores of provider transactions

`InMemoryProviderTransferStore` ignores the tenant. The table behind `ProviderTxAdapter` is claimed for
a tenant, but updates and deletes go to the rows of all tenants.
-/

namespace Settla.Node.ClaimStore

inductive ProviderTxType
  | onRamp | offRamp | blockchain
  deriving DecidableEq

/-- A transfer and a type. -/
abbrev Slot := UUID × ProviderTxType

def claiming : ProviderTx := ⟨"", "claiming", ""⟩

inductive Call
  | claim (slot : Slot) (provider : String)
  | update (slot : Slot) (tx : ProviderTx)
  | delete (slot : Slot)
  | switchRoute (slot : Slot) (old new : TransferRoute)

/-! ## In memory -/

abbrev Memory := Slot → Option ProviderTx

/-- Whether the slot was claimed, and what is left. -/
def Memory.claim (slot : Slot) (m : Memory) : Bool × Memory :=
  match m slot with
  | some tx =>
    if tx.status ∈ ["completed", "confirmed", "pending"] then (false, m)
    else (true, Function.update m slot (some claiming))
  | none => (true, Function.update m slot (some claiming))

/-- What a call returns, if it is a claim, and what it leaves. -/
def Memory.call (m : Memory) : Call → Option Bool × Memory
  | .claim slot _ => ((m.claim slot).1, (m.claim slot).2)
  | .update slot tx => (none, Function.update m slot (some tx))
  | .delete slot => (none, Function.update m slot none)
  | .switchRoute slot _ _ => (none, Function.update m slot none)

/-! ## In the database -/

structure Row where
  tenantID : UUID
  slot : Slot
  provider : String
  tx : ProviderTx

abbrev Table := List Row

/-- The row of a tenant for a slot: the columns of the first unique index. -/
def Table.find (t : Table) (tenantID : UUID) (slot : Slot) : Option Row :=
  t.find? fun r => r.tenantID = tenantID ∧ r.slot = slot

def Table.claim (tenantID : UUID) (slot : Slot) (provider : String) (t : Table) : Bool × Table :=
  match t.find tenantID slot with
  | some _ => (false, t)
  | none => (true, t ++ [⟨tenantID, slot, provider, claiming⟩])

/-- The second unique index, on the provider and an external ID that is not empty. -/
def Table.Unique (t : Table) : Prop :=
  t.Pairwise fun r r' => r.provider = r'.provider → r.tx.externalID = r'.tx.externalID → r.tx.externalID = ""

instance (t : Table) : Decidable t.Unique := inferInstanceAs (Decidable (List.Pairwise _ t))

def Row.update (slot : Slot) (tx : ProviderTx) (r : Row) : Row :=
  if r.slot = slot ∧ r.tx.terminal = false then { r with tx := tx } else r

/-- A statement that would violate the index changes nothing. -/
def Table.update (slot : Slot) (tx : ProviderTx) (t : Table) : Table :=
  if Table.Unique (t.map (Row.update slot tx)) then t.map (Row.update slot tx) else t

def Table.delete (slot : Slot) (t : Table) : Table := t.filter (·.slot ≠ slot)

/-- The transaction is rolled back if the route is not updated. -/
def Table.switchRoute (slot : Slot) (old new : TransferRoute) (t : Table) : Table :=
  match updateTransferRoute new old with
  | some _ => t.delete slot
  | none => t

variable (tenantOf : UUID → UUID)

/-- What a call returns, if it is a claim, and what it leaves; claims are made for the tenant of the transfer. -/
def Table.call (t : Table) : Call → Option Bool × Table
  | .claim slot provider =>
    ((t.claim (tenantOf slot.1) slot provider).1, (t.claim (tenantOf slot.1) slot provider).2)
  | .update slot tx => (none, t.update slot tx)
  | .delete slot => (none, t.delete slot)
  | .switchRoute slot old new => (none, t.switchRoute slot old new)

/-! ## Side by side -/

structure Stores where
  memory : Memory := fun _ => none
  table : Table := []

def Stores.call (s : Stores) (c : Call) : Stores := ⟨(s.memory.call c).2, (s.table.call tenantOf c).2⟩

end Settla.Node.ClaimStore
