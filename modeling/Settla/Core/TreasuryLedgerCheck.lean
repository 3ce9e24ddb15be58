import Settla.Domain.Types

/-!
# Reconciling treasury and ledger

The balance of each treasury position against that of a ledger account, which is named after the
tenant, the currency and the location of the position.
-/

namespace Settla.Reconciliation

structure Position where
  tenantID : UUID
  currency : Currency
  location : String
  balance : Decimal

def buildAccountCode (slug : String) (pos : Position) : String :=
  "tenant:" ++ slug ++ ":assets:bank:" ++ toLower pos.currency ++ ":" ++ pos.location

inductive Detail
  /-- "tenant=%s account=%s: ledger query error" -/
  | queryError (tenantID : UUID) (accountCode : String)
  /-- "tenant=%s account=%s: treasury=%s ledger=%s diff=%s" -/
  | mismatch (tenantID : UUID) (accountCode : String) (treasury ledger diff : Decimal)
  deriving DecidableEq

structure CheckResult where
  (name status : String)
  details : List Detail
  mismatches : ℕ

/-- `TreasuryLedgerCheck`, with what the components it asks answer. -/
structure TreasuryLedgerCheck where
  getTenantSlug : UUID → Option String
  getPositions : UUID → Option (List Position)
  getAccountBalance : String → Option Decimal
  tolerance : Decimal

namespace TreasuryLedgerCheck

variable (c : TreasuryLedgerCheck)

def slug (tenantID : UUID) : String := (c.getTenantSlug tenantID).getD tenantID.string

def comparePosition (tenantID : UUID) (pos : Position) : Option Detail :=
  let accountCode := buildAccountCode (c.slug tenantID) pos
  match c.getAccountBalance accountCode with
  | none => some (.queryError tenantID accountCode)
  | some ledgerBalance =>
    let diff := |pos.balance - ledgerBalance|
    if c.tolerance < diff then some (.mismatch tenantID accountCode pos.balance ledgerBalance diff) else none

/-- The details for a list of tenants; none if the positions of one cannot be read. -/
def compare : List UUID → Option (List Detail)
  | [] => some []
  | tenantID :: tenantIDs => do
    let positions ← c.getPositions tenantID
    let rest ← compare tenantIDs
    return positions.filterMap (c.comparePosition tenantID) ++ rest

def run (tenantIDs : List UUID) : Except String CheckResult :=
  match c.compare tenantIDs with
  | none => .error "settla-reconciliation: tenant iteration failed"
  | some details =>
    .ok {
      name := "treasury_ledger_balance"
      status := if 0 < details.length then "fail" else "pass"
      details := details
      mismatches := details.length }

end TreasuryLedgerCheck

end Settla.Reconciliation
