import Settla.Core.Settlement
import Settla.Domain.Transfer

/-!
# Completed transfers for the settlement

The columns of `transfers` that the settlement reads and the query
`AggregateCompletedTransfersByPeriod`. The fees of a transfer are one JSON column.
-/

namespace Settla.Settlement

open Lib.Keyed

/-- A JSON object of decimals. A decimal is written as text in quotes, with all its digits. -/
abbrev JSONObject := List (String × Decimal)

/-- `json.Marshal` of a `FeeBreakdown`. Its fields have no tags, so the keys are their names. -/
def marshalFees (f : FeeBreakdown) : JSONObject :=
  [("OnRampFee", f.onRampFee), ("NetworkFee", f.networkFee), ("OffRampFee", f.offRampFee),
    ("TotalFeeUSD", f.totalFeeUSD)]

structure SettledRow where
  transfer : Transfer
  (id tenantID : UUID)
  status : TransferStatus
  version : ℕ
  sourceCurrency : Currency
  sourceAmount : Decimal
  destCurrency : Currency
  destAmount : Decimal
  fees : JSONObject
  completedAt : Option Time

/-- The row that `CreateTransferWithOutbox` inserts; the database draws the ID. -/
def insertedRow (t : Transfer) (id : UUID) : SettledRow where
  transfer := t
  id := id
  tenantID := t.tenantID
  status := t.status
  version := 0
  sourceCurrency := t.sourceCurrency
  sourceAmount := numeric8 t.sourceAmount
  destCurrency := t.destCurrency
  destAmount := numeric8 t.destAmount
  fees := marshalFees t.fees
  completedAt := none

def SettledRow.advance (r : SettledRow) (newStatus : TransferStatus) (now : Time) : SettledRow :=
  { r with
    status := newStatus
    version := r.version + 1
    completedAt := if newStatus = .completed then some now else r.completedAt }

inductive TransferWrite
  | create (t : Transfer) (id : UUID)
  | transition (id : UUID) (expectedVersion : ℕ) (newStatus : TransferStatus) (now : Time)

def writeTransfers (rows : List SettledRow) : TransferWrite → List SettledRow
  | .create t id => rows ++ [insertedRow t id]
  | .transition id expectedVersion newStatus now =>
    rows.map fun r => if r.id = id ∧ r.version = expectedVersion then r.advance newStatus now else r

/-- The condition of the query: the tenant's transfers completed in `[start, finish)`. -/
def SettledRow.CompletedIn (r : SettledRow) (tenantID : UUID) (start finish : Time) : Prop :=
  r.tenantID = tenantID ∧ r.status = .completed ∧ (r.completedAt.any fun t => start ≤ t ∧ t < finish) = true

instance (r : SettledRow) (tenantID : UUID) (start finish : Time) : Decidable (r.CompletedIn tenantID start finish) :=
  inferInstanceAs (Decidable (_ ∧ _))

/-- `COALESCE((fees->>'total_usd')::NUMERIC(28,8), 0)`. -/
def SettledRow.feesUSD (r : SettledRow) : Decimal :=
  match get r.fees "total_usd" with
  | some d => numeric8 d
  | none => 0

def aggregateCompletedTransfersByPeriod (order : Reading ((Currency × Currency) × List SettledRow))
    (rows : List SettledRow) (tenantID : UUID) (start finish : Time) : List CorridorAggregate :=
  (order.read (grouped (fun r => (r.sourceCurrency, r.destCurrency))
    (rows.filter (·.CompletedIn tenantID start finish)))).map fun g =>
      { sourceCurrency := g.1.1
        destCurrency := g.1.2
        totalSource := numeric8 (g.2.map (·.sourceAmount)).sum
        totalDest := numeric8 (g.2.map (·.destAmount)).sum
        transferCount := g.2.length
        totalFeesUSD := numeric8 (g.2.map (·.feesUSD)).sum }

end Settla.Settlement
