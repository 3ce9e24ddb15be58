import Settla.Core.Engine
import Settla.Core.TreasuryLedgerCheck
import Settla.Node.BankDepositWorker
import Settla.Node.DepositWorker
import Settla.Node.LedgerWorker
import Settla.Node.TreasuryWorker

/-!
# Treasury and ledger side by side

The treasury worker and the deposit workers call the treasury manager, the ledger worker posts journal
entries; `accountBalance` is the balance that `GetBalance` returns for an account.
-/

namespace Settla.Node.Books

open Treasury

/-! ## The treasury -/

/-- The call of the manager that `handleIntent` makes. -/
def intentCall : Intent → Option Call
  | .treasuryReserve p => some (.op .reserve ⟨p.tenantID, p.currency, p.location⟩ p.amount p.transferID "")
  | .treasuryRelease p =>
    some (.op .release ⟨p.tenantID, p.currency, p.location⟩ p.amount (releaseRef p.transferID p.reason) "")
  | .treasuryConsume p => some (.op .consume ⟨p.tenantID, p.currency, p.location⟩ p.amount p.transferID "")
  | _ => none

def depositCreditCall (p : CreditDepositPayload) : Call :=
  .op .credit (creditPosition p) p.netAmount p.sessionID "deposit_session"

def bankCreditPosition (p : CreditBankDepositPayload) : PositionKey where
  tenantID := p.tenantID
  currency := p.currency
  location := "bank:" ++ toLower p.currency

def bankCreditCall (p : CreditBankDepositPayload) : Call :=
  .op .credit (bankCreditPosition p) p.netAmount p.sessionID "bank_deposit"

def creditsOf (outbox : List DepositEntry) : List CreditDepositPayload :=
  outbox.filterMap fun entry => match entry.body with
    | .credit p => some p
    | _ => none

def bankCreditsOf (outbox : List BankDepositEntry) : List CreditBankDepositPayload :=
  outbox.filterMap fun entry => match entry.body with
    | .credit p => some p
    | _ => none

/-! ## The ledger -/

def accountEffect (account : String) (l : EntryLine) : Decimal :=
  if l.accountCode = account then
    match l.entryType with
    | .credit => l.amount
    | .debit => -l.amount
    | .other _ => 0
  else 0

def entryAdds (account : String) (e : JournalEntry) : Decimal := (e.lines.map (accountEffect account)).sum

def accountBalance (journal : List JournalEntry) (account : String) : Decimal :=
  (journal.map (entryAdds account)).sum

/-! ## The check -/

def snapshot (k : PositionKey) (ps : PositionState) : Reconciliation.Position :=
  ⟨k.tenantID, k.currency, k.location, fromMicro ps.balanceMicro⟩

/-- `TreasuryLedgerCheck` over a treasury and a journal. `index` are the positions of each tenant. -/
def treasuryLedgerCheck (w : World) (journal : List JournalEntry) (slugs : UUID → Option String)
    (index : UUID → List PositionKey) (tolerance : Decimal) : Reconciliation.TreasuryLedgerCheck where
  getTenantSlug := slugs
  getPositions := fun tenantID => some ((index tenantID).filterMap fun k => (w.mgr.positions k).map (snapshot k))
  getAccountBalance := fun account => some (accountBalance journal account)
  tolerance := tolerance

end Settla.Node.Books
