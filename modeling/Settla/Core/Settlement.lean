import Settla.Domain.Fees
import Settla.Lib.Keyed
import Settla.Lib.Threads

/-!
# Net settlement

What a tenant on the net settlement model owes for a period (`calculator.go`), and the instructions
over all tenants (`netting.go`). Maps are read in any order.
-/

namespace Settla.Settlement

open Lib Lib.Keyed

/-! ## Amounts as text -/

def stringFixed (places : ℕ) (d : Decimal) : String :=
  let n := ⌊|d| * 10 ^ places + 1 / 2⌋.toNat
  let digits := toString (n % 10 ^ places)
  (if d < 0 ∧ n ≠ 0 then "-" else "") ++ toString (n / 10 ^ places) ++
    (if places = 0 then "" else "." ++ String.ofList (List.replicate (places - digits.length) '0') ++ digits)

variable (amount : Decimal)

def formatAmount : String :=
  if 1000000000 ≤ amount then stringFixed 2 (roundPlaces 16 (amount / 1000000000)) ++ "B"
  else if 1000000 ≤ amount then stringFixed 2 (roundPlaces 16 (amount / 1000000)) ++ "M"
  else if 1000 ≤ amount then stringFixed 0 (roundPlaces 16 (amount / 1000)) ++ "K"
  else stringFixed 2 amount

example : formatAmount 1354999.5 = "1.35M" ∧ formatAmount 7.005 = "7.01" := by decide +kernel

/-! ## Records -/

inductive SettlementModel
  | prefunded | netSettlement
  deriving DecidableEq

structure Tenant where
  id : UUID
  name : String
  active : Bool
  settlementModel : SettlementModel
  feeSchedule : FeeSchedule

structure CorridorAggregate where
  (sourceCurrency destCurrency : Currency)
  (totalSource totalDest : Decimal)
  transferCount : ℕ
  totalFeesUSD : Decimal

structure CorridorPosition where
  (sourceCurrency destCurrency : Currency)
  (totalSource totalDest : Decimal)
  transferCount : ℕ

structure CurrencyNet where
  currency : Currency
  (inflows outflows net : Decimal)
  deriving DecidableEq

inductive Direction
  | tenantOwesSettla | settlaOwesTenant
  deriving DecidableEq

structure SettlementInstruction where
  direction : Direction
  currency : Currency
  amount : Decimal
  description : String

inductive SettlementStatus
  | pending | approved | settled | overdue
  deriving DecidableEq

structure NetSettlement where
  (id tenantID : UUID)
  tenantName : String
  (periodStart periodEnd : Time)
  corridors : List CorridorPosition
  netByCurrency : List CurrencyNet
  totalFeesUSD : Decimal
  instructions : List SettlementInstruction
  feeScheduleSnapshot : FeeSchedule
  status : SettlementStatus
  dueDate : Option Time

/-! ## The settlement of a tenant -/

variable (aggregates : List CorridorAggregate)

def corridorsFromAggregates : List CorridorPosition :=
  aggregates.map fun a => ⟨a.sourceCurrency, a.destCurrency, a.totalSource, a.totalDest, a.transferCount⟩

def newNet (currency : Currency) : CurrencyNet := ⟨currency, 0, 0, 0⟩

def CurrencyNet.send (n : CurrencyNet) : CurrencyNet := { n with outflows := n.outflows + amount }

def CurrencyNet.receive (n : CurrencyNet) : CurrencyNet := { n with inflows := n.inflows + amount }

/-- The loop of `netByCurrencyFromAggregates`: outflows in the source currency, inflows in the
other. -/
def nets : List (Currency × CurrencyNet) :=
  aggregates.foldl (fun m a =>
    upsert newNet (CurrencyNet.receive a.totalDest) a.destCurrency
      (upsert newNet (CurrencyNet.send a.totalSource) a.sourceCurrency m)) []

def netByCurrencyFromAggregates (order : Reading (Currency × CurrencyNet)) (aggregates : List CorridorAggregate) :
    List CurrencyNet :=
  (order.read (nets aggregates)).map fun e => { e.2 with net := e.2.inflows - e.2.outflows }

def netInstruction (tenantName : String) (n : CurrencyNet) : Option SettlementInstruction :=
  if n.net = 0 then none
  else if 0 < n.net then
    some ⟨.settlaOwesTenant, n.currency, n.net,
      "Settla owes " ++ tenantName ++ " " ++ formatAmount n.net ++ " " ++ n.currency⟩
  else
    some ⟨.tenantOwesSettla, n.currency, |n.net|,
      tenantName ++ " owes Settla " ++ formatAmount |n.net| ++ " " ++ n.currency⟩

def feeInstruction (totalFees : Decimal) : Option SettlementInstruction :=
  if 0 < totalFees then
    some ⟨.tenantOwesSettla, "USD", roundPlaces 2 totalFees,
      "Fees: " ++ formatAmount (roundPlaces 2 totalFees) ++ " USD"⟩
  else none

def generateInstructions (tenantName : String) (netByCurrency : List CurrencyNet) (totalFees : Decimal) :
    List SettlementInstruction :=
  netByCurrency.filterMap (netInstruction tenantName) ++ (feeInstruction totalFees).toList

def day : Time := 24 * 60 * minute

def defaultSettlementDays : ℤ := 3

/-- The arguments of `CalculateNetSettlement`, the answers of its stores, and the ID it draws. -/
structure Calculation where
  tenantID : UUID
  (periodStart periodEnd : Time)
  tenant : Option Tenant
  aggregates : Option (List CorridorAggregate)
  order : Reading (Currency × CurrencyNet)
  id : UUID

inductive CalcErr
  /-- "invalid period range: periodStart (...) must be before periodEnd (...)" -/
  | invalidPeriod (periodStart periodEnd : Time)
  /-- "loading tenant ..." -/
  | loadingTenant (tenantID : UUID)
  /-- "tenant ... uses ... model, not NET_SETTLEMENT" -/
  | wrongModel (tenantID : UUID) (model : SettlementModel)
  /-- "aggregating transfers for tenant ..." -/
  | aggregating (tenantID : UUID)
  /-- "persisting net settlement for tenant ..." -/
  | persisting (tenantID : UUID)

def Calculation.record (c : Calculation) (tenant : Tenant) (aggregates : List CorridorAggregate) : NetSettlement :=
  let netByCurrency := netByCurrencyFromAggregates c.order aggregates
  let totalFees := (aggregates.map (·.totalFeesUSD)).sum
  { id := c.id
    tenantID := c.tenantID
    tenantName := tenant.name
    periodStart := c.periodStart
    periodEnd := c.periodEnd
    corridors := corridorsFromAggregates aggregates
    netByCurrency := netByCurrency
    totalFeesUSD := totalFees
    instructions := generateInstructions tenant.name netByCurrency totalFees
    feeScheduleSnapshot := tenant.feeSchedule
    status := .pending
    dueDate := some (c.periodEnd + defaultSettlementDays * day) }

/-- `CalculateNetSettlement` up to the record. -/
def Calculation.build (c : Calculation) : Except CalcErr NetSettlement :=
  if ¬ c.periodStart < c.periodEnd then .error (.invalidPeriod c.periodStart c.periodEnd)
  else
    match c.tenant with
    | none => .error (.loadingTenant c.tenantID)
    | some tenant =>
      if tenant.settlementModel ≠ .netSettlement then .error (.wrongModel c.tenantID tenant.settlementModel)
      else
        match c.aggregates with
        | none => .error (.aggregating c.tenantID)
        | some aggregates => .ok (c.record tenant aggregates)

/-! ## Storing it -/

/-- A row of `net_settlements`. The creation time is the clock of the database. -/
structure SettlementRow where
  settlement : NetSettlement
  createdAt : Time
  settledAt : Option Time

/-- The unique constraints of `net_settlements`: both contain the creation time, by which the
table is partitioned. -/
def SettlementRow.Collides (r : SettlementRow) (s : NetSettlement) (createdAt : Time) : Prop :=
  r.createdAt = createdAt ∧
    (r.settlement.id = s.id ∨
      r.settlement.tenantID = s.tenantID ∧ r.settlement.periodStart = s.periodStart ∧
        r.settlement.periodEnd = s.periodEnd)

instance (r : SettlementRow) (s : NetSettlement) (createdAt : Time) : Decidable (r.Collides s createdAt) :=
  inferInstanceAs (Decidable (_ ∧ _))

inductive InsertErr
  /-- "duplicate key value violates unique constraint ..." -/
  | duplicateKey | other

/-- `SettlementAdapter.CreateNetSettlement`, with the new rows. -/
def createNetSettlement (rows : List SettlementRow) (s : NetSettlement) (now : Time) (reply : Threads.Reply) :
    Except InsertErr Unit × List SettlementRow :=
  if reply = .error then (.error .other, rows)
  else if ∃ r ∈ rows, r.Collides s now then (.error .duplicateKey, rows)
  else (if reply = .lost then .error .other else .ok (), rows ++ [⟨s, now, none⟩])

/-- `CalculateNetSettlement`. A record that was already stored is returned as if it were new. -/
def calculateNetSettlement (rows : List SettlementRow) (c : Calculation) (now : Time) (reply : Threads.Reply) :
    Except CalcErr NetSettlement × List SettlementRow :=
  match c.build with
  | .error e => (.error e, rows)
  | .ok s =>
    let (result, rows') := createNetSettlement rows s now reply
    match result with
    | .ok () => (.ok s, rows')
    | .error .duplicateKey => (.ok s, rows')
    | .error .other => (.error (.persisting c.tenantID), rows')

/-! ## Netting -/

structure TenantPosition where
  currency : Currency
  tenantID : UUID
  tenantName : String
  net : Decimal

structure NettedInstruction where
  currency : Currency
  direction : Direction
  tenantID : UUID
  tenantName : String
  amount : Decimal
  description : String

/-- `NettingResult`. `savings` is what the percentage is computed from. -/
structure NettingResult where
  originalInstructions : ℕ
  nettedInstructions : List NettedInstruction
  (totalOriginalVolume totalNettedVolume savings : Decimal)

def positions (settlements : List NetSettlement) : List TenantPosition :=
  settlements.flatMap fun s => s.netByCurrency.map fun n => ⟨n.currency, s.tenantID, s.tenantName, n.net⟩

def nettedInstruction (p : TenantPosition) : Option NettedInstruction :=
  if p.net = 0 then none
  else if p.net < 0 then
    some ⟨p.currency, .settlaOwesTenant, p.tenantID, p.tenantName, |p.net|,
      "Settla owes " ++ p.tenantName ++ " " ++ stringFixed 2 |p.net| ++ " " ++ p.currency⟩
  else
    some ⟨p.currency, .tenantOwesSettla, p.tenantID, p.tenantName, |p.net|,
      p.tenantName ++ " owes Settla " ++ stringFixed 2 |p.net| ++ " " ++ p.currency⟩

/-- The orders in which the map of currencies is read and the positions of a currency are sorted. -/
structure NettingOrder where
  currencies : Reading (Currency × List TenantPosition)
  largest : Sorting TenantPosition fun p q => q.net < p.net

def calculateCrossTenantNetting (order : NettingOrder) (settlements : List NetSettlement) : NettingResult :=
  let positions := positions settlements
  let byCurrency := grouped (·.currency) positions
  let netted := (order.currencies.read byCurrency).flatMap fun e =>
    (order.largest.read e.2).filterMap nettedInstruction
  let totalOriginal := (positions.map (|·.net|)).sum
  let totalNetted := (netted.map (·.amount)).sum
  { originalInstructions := positions.length
    nettedInstructions := netted
    totalOriginalVolume := totalOriginal
    totalNettedVolume := totalNetted
    savings := if totalOriginal = 0 then 0 else roundPlaces 16 ((totalOriginal - totalNetted) / totalOriginal) }

end Settla.Settlement
