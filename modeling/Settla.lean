import Settla.Proof.Amounts
import Settla.Proof.Atomic
import Settla.Proof.BankCredits
import Settla.Proof.Batch
import Settla.Proof.Blockchain
import Settla.Proof.Books
import Settla.Proof.Breaker
import Settla.Proof.ChainMonitor
import Settla.Proof.CircuitBreaker
import Settla.Proof.ClaimStore
import Settla.Proof.Compensation
import Settla.Proof.CreditOnce
import Settla.Proof.Credited
import Settla.Proof.DailyLimit
import Settla.Proof.Denominated
import Settla.Proof.DepositFees
import Settla.Proof.Detected
import Settla.Proof.Ends
import Settla.Proof.Escalated
import Settla.Proof.FXLoss
import Settla.Proof.Failed
import Settla.Proof.Fallback
import Settla.Proof.Finished
import Settla.Proof.Idempotency
import Settla.Proof.Leader
import Settla.Proof.NetPositions
import Settla.Proof.OutboxIdentity
import Settla.Proof.Payout
import Settla.Proof.Periods
import Settla.Proof.PositionOutcome
import Settla.Proof.Quoted
import Settla.Proof.ReadModel
import Settla.Proof.Received
import Settla.Proof.RecordAgrees
import Settla.Proof.Refunded
import Settla.Proof.Relay
import Settla.Proof.Returned
import Settla.Proof.RouteQuote
import Settla.Proof.Routing
import Settla.Proof.SessionIdentity
import Settla.Proof.SettledFees
import Settla.Proof.Slippage
import Settla.Proof.Subscriber
import Settla.Proof.TenantBinding
import Settla.Proof.TenantIndex
import Settla.Proof.Truthful
import Settla.Proof.VirtualAccounts
import Settla.Proof.Webhook
