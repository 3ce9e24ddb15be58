import Settla.Domain.Outbox
import Settla.Lib.Optimistic

/-!
# The settlement engine

Each method of `core/engine.go` loads the transfer row, decides on a `Plan`, and calls
`TransitionWithOutbox` with the version it loaded. `Invocation.prog` is a method as its store calls,
`Store.call` one run without interference.
-/

namespace Settla.Core

open Lib.Optimistic

structure IntentResult where
  success : Bool
  (txHash error : String)
  deriving DecidableEq

/-- What the engine looks up besides the transfer row. A lookup that fails gives `none`. -/
structure Lookups where
  getQuote : UUID → UUID → Option Quote
  getTenant : UUID → Option String

inductive EngineErr
  | transferNotFound
  /-- `ErrInvalidTransition` -/
  | invalidTransition (src dst : String)
  | loadingTenant
  /-- "net amount after fee(s) must be positive" -/
  | netNotPositive (net source fee : Decimal)
  /-- "ledger entries imbalanced" -/
  | ledgerImbalance (e : LedgerErr)
  | optimisticLock
  deriving DecidableEq

/-- What a method decides from the row it loaded. -/
inductive Plan
  | refuse (e : EngineErr)
  | skip
  | transition (newStatus : TransferStatus) (entries : List OutboxEntry)

/-! ## Payloads -/

variable (t : Transfer)

def location : String := "bank:" ++ toLower t.sourceCurrency

def outboxEntries (intents : List Intent) (event : Option EventType) : List OutboxEntry :=
  setCorrelationID
    (intents.map (newOutboxIntent "transfer" t.id t.tenantID) ++
      event.toList.map fun ev => newOutboxEvent "transfer" t.id t.tenantID ev t.id) t.id

def reserveIntent : Intent :=
  .treasuryReserve ⟨t.id, t.tenantID, t.sourceCurrency, t.sourceAmount, location t⟩

def releaseIntent (reason : String) : Intent :=
  .treasuryRelease ⟨t.id, t.tenantID, t.sourceCurrency, t.sourceAmount, location t, reason⟩

def consumeIntent : Intent :=
  .treasuryConsume ⟨t.id, t.tenantID, t.sourceCurrency, t.sourceAmount, location t⟩

def webhookIntent (event : EventType) (data : WebhookData) : Intent :=
  .webhookDeliver ⟨t.id, t.tenantID, event, data⟩

def ledgerPayload (key description referenceType : String) (lines : List Posting) :
    LedgerPostPayload :=
  ⟨t.id, t.tenantID, key ++ ":" ++ t.id.string, description, referenceType, lines⟩

def cryptoAccount : String :=
  "assets:crypto:" ++ toLower t.stableCoin ++ ":" ++ toLower t.chain

variable (slug : String)

def clearingAccount : String :=
  tenantAccountCode slug ("assets:bank:" ++ toLower t.sourceCurrency ++ ":clearing")

def clearingLines (side : EntryType) (d₁ d₂ d₃ : String) : List Posting :=
  [⟨cryptoAccount t, side, t.stableAmount, t.stableCoin, d₁⟩,
    ⟨"expenses:provider:onramp", side, t.fees.onRampFee, t.sourceCurrency, d₂⟩,
    ⟨clearingAccount t slug, side.swap, t.sourceAmount, t.sourceCurrency, d₃⟩]

def onRampLines : List Posting :=
  clearingLines t slug .debit "Debit crypto asset" "Debit on-ramp fee" "Credit clearing account"

/-- The reversal lines of `HandleSettlementResult` and `HandleOffRampResult`. -/
def reversalLines : List Posting :=
  clearingLines t slug .credit "Reverse: credit crypto asset" "Reverse: credit on-ramp fee"
    "Reverse: debit clearing account"

def refundLines : List Posting :=
  clearingLines t slug .credit "Refund: reverse crypto asset" "Refund: reverse on-ramp fee"
    "Refund: debit clearing account"

def completionLines : List Posting :=
  [⟨tenantAccountCode slug "liabilities:customer:pending", .debit, t.sourceAmount, t.sourceCurrency,
      "Debit customer pending"⟩,
    ⟨tenantAccountCode slug "liabilities:payable:recipient", .credit, t.sourceAmount - t.fees.totalFeeUSD,
      t.sourceCurrency, "Credit recipient payable (net of fees)"⟩,
    ⟨tenantAccountCode slug "revenue:fees:settlement", .credit, t.fees.totalFeeUSD, t.sourceCurrency,
      "Credit settlement fee revenue"⟩]

/-- `validateLedgerLines`: fresh line IDs, then `ValidateEntries`. -/
def validateLedgerLines (lines : List Posting) : Except LedgerErr Unit := validateEntries (withIDs lines)

/-- The alternatives of the quote, each combination of providers and chain once. -/
def onRampFallbacks (seen : List String) : List RouteAlternative → List OnRampFallback
  | [] => []
  | alt :: alts =>
    let dedupKey := alt.onRampProvider ++ ":" ++ alt.offRampProvider ++ ":" ++ alt.chain
    if dedupKey ∈ seen then onRampFallbacks seen alts
    else ⟨alt.onRampProvider, alt.offRampProvider, alt.chain, alt.stableCoin, alt.fee, alt.rate,
        alt.stableAmount⟩ :: onRampFallbacks (dedupKey :: seen) alts

/-- Alternatives on the same chain with the same stablecoin. -/
def offRampFallbacks (alts : List RouteAlternative) : List OffRampFallback :=
  (alts.filter fun alt => alt.chain = t.chain ∧ alt.stableCoin = t.stableCoin).map fun alt =>
    ⟨alt.offRampProvider, alt.fee, alt.rate⟩

variable (l : Lookups)

def quoteAlternatives (t : Transfer) : List RouteAlternative :=
  match t.quoteID.bind (l.getQuote t.tenantID) with
  | some q => q.route.alternativeRoutes
  -- a quote that is gone leaves the on-ramp without fallbacks, it does not stop it
  | none => []

def notInStatus : Plan := .refuse (.invalidTransition t.status.string "next")

/-- Skip a late result if the transfer has advanced past the step, refuse it otherwise. -/
def lateResult (expected : TransferStatus) : Plan :=
  if isAdvancedPast t.status expected then .skip
  else .refuse (.invalidTransition t.status.string expected.string)

/-! ## The methods -/

def fundTransfer : Plan :=
  if t.status ≠ .created then notInStatus t
  else .transition .funded (outboxEntries t [reserveIntent t] (some .transferFunded))

def initiateOnRamp (t : Transfer) : Plan :=
  if t.status ≠ .funded then notInStatus t
  else
    let payload : ProviderOnRampPayload :=
      { transferID := t.id
        tenantID := t.tenantID
        providerID := t.onRampProviderID
        amount := t.sourceAmount
        fromCurrency := t.sourceCurrency
        toCurrency := t.stableCoin
        reference := t.id.string
        alternatives := onRampFallbacks [] (quoteAlternatives l t)
        quotedRate := t.fxRate }
    .transition .onRamping (outboxEntries t [.providerOnRamp payload] none)

variable (r : IntentResult)

def handleOnRampResult (t : Transfer) : Plan :=
  if t.status ≠ .onRamping then lateResult t .onRamping
  else if r.success then
    match l.getTenant t.tenantID with
    | none => .refuse .loadingTenant
    | some slug =>
      let netAmount := t.sourceAmount - t.fees.onRampFee
      if ¬ 0 < netAmount then .refuse (.netNotPositive netAmount t.sourceAmount t.fees.onRampFee)
      else
        let post := ledgerPayload t "onramp" ("On-ramp transfer " ++ t.id.string) "transfer" (onRampLines t slug)
        let send : BlockchainSendPayload :=
          ⟨t.id, t.tenantID, t.chain, t.stableCoin, t.stableAmount, "settlement:" ++ t.id.string⟩
        .transition .settling (outboxEntries t [.ledgerPost post, .blockchainSend send] (some .onRampCompleted))
  else
    -- nothing has been posted yet: only the reservation goes back
    .transition .refunding
      (outboxEntries t [releaseIntent t "onramp_failure"] (some .providerOnRampFailed))

def handleSettlementResult (t : Transfer) : Plan :=
  if t.status ≠ .settling then lateResult t .settling
  else if r.success then
    let payload : ProviderOffRampPayload :=
      { transferID := t.id
        tenantID := t.tenantID
        providerID := t.offRampProviderID
        amount := t.stableAmount
        fromCurrency := t.stableCoin
        toCurrency := t.destCurrency
        recipient := t.recipient
        reference := t.id.string
        alternatives := offRampFallbacks t (quoteAlternatives l t)
        quotedRate := t.fxRate
        sourceTxHash := r.txHash }
    .transition .offRamping (outboxEntries t [.providerOffRamp payload] (some .settlementCompleted))
  else
    match l.getTenant t.tenantID with
    | none => .refuse .loadingTenant
    | some slug =>
      -- the lines are already swapped here; the ledger worker swaps them once more
      let reverse := ledgerPayload t "reverse-settle"
        ("Reverse settlement for transfer " ++ t.id.string ++ ": " ++ r.error) "reversal" (reversalLines t slug)
      .transition .failed (outboxEntries t [releaseIntent t "settlement_failure", .ledgerReverse reverse]
        (some .blockchainFailed))

def completeTransfer (t : Transfer) : Plan :=
  if t.status ≠ .offRamping then notInStatus t
  else
    match l.getTenant t.tenantID with
    | none => .refuse .loadingTenant
    | some slug =>
      let netAmount := t.sourceAmount - t.fees.totalFeeUSD
      if ¬ 0 < netAmount then .refuse (.netNotPositive netAmount t.sourceAmount t.fees.totalFeeUSD)
      else
        -- the only method that checks its lines before it writes them
        match validateLedgerLines (completionLines t slug) with
        | .error e => .refuse (.ledgerImbalance e)
        | .ok () =>
          let post := ledgerPayload t "complete" ("Complete transfer " ++ t.id.string) "transfer"
            (completionLines t slug)
          .transition .completed (outboxEntries t
            [consumeIntent t, .ledgerPost post, webhookIntent t .transferCompleted .none] (some .transferCompleted))

/-- The first load of `HandleOffRampResult`: go on only from OFF_RAMPING. -/
def offRampPrecheck : Option Plan :=
  if t.status ≠ .offRamping then some (lateResult t .offRamping) else none

/-- The failure branch of `HandleOffRampResult`, after its second load. -/
def offRampFailure (t : Transfer) : Plan :=
  if t.status ≠ .offRamping then notInStatus t
  else
    match l.getTenant t.tenantID with
    | none => .refuse .loadingTenant
    | some slug =>
      let reverse := ledgerPayload t "reverse-offramp"
        ("Reverse off-ramp for transfer " ++ t.id.string ++ ": " ++ r.error) "reversal" (reversalLines t slug)
      .transition .failed (outboxEntries t
        [releaseIntent t "offramp_failure", .ledgerReverse reverse, webhookIntent t .transferFailed .none]
        (some .providerOffRampFailed))

def failTransfer (reason code : String) (t : Transfer) : Plan :=
  if ¬ t.canTransitionTo .failed then
    .refuse (.invalidTransition t.status.string TransferStatus.failed.string)
  else
    .transition .failed (outboxEntries t
      -- no reversal, also where the on-ramp has been posted
      [releaseIntent t "transfer_failed", webhookIntent t .transferFailed (.failure reason code)]
      (some .transferFailed))

/-- `InitiateRefund`. The reversal has lines only if the on-ramp may have been posted. -/
def initiateRefund (t : Transfer) : Plan :=
  if t.status ≠ .funded ∧ t.status ≠ .failed then
    .refuse (.invalidTransition t.status.string TransferStatus.refunding.string)
  else if ¬ t.canTransitionTo .refunding then
    .refuse (.invalidTransition t.status.string TransferStatus.refunding.string)
  else
    let refund (lines : List Posting) : Plan :=
      let reverse := ledgerPayload t "refund" ("Refund for transfer " ++ t.id.string) "reversal" lines
      .transition .refunding (outboxEntries t [.ledgerReverse reverse, releaseIntent t "refund"]
        (some .refundInitiated))
    -- a FAILED transfer may have been posted or not: the status does not say
    if t.status = .failed ∧ 0 < t.stableAmount then
      match l.getTenant t.tenantID with
      | none => .refuse .loadingTenant
      | some slug => refund (refundLines t slug)
    else refund []

/-- `HandleRefundResult`. A failed refund only waits for the recovery detector. -/
def handleRefundResult (t : Transfer) : Plan :=
  if t.status ≠ .refunding then notInStatus t
  else if r.success then
    .transition .refunded (outboxEntries t [webhookIntent t .refundCompleted (.refundCompleted t.id)]
      (some .refundCompleted))
  else .skip

/-! ## Calls -/

inductive EngineCall
  | fundTransfer | initiateOnRamp
  | handleOnRampResult (r : IntentResult)
  | handleSettlementResult (r : IntentResult)
  | handleOffRampResult (r : IntentResult)
  | completeTransfer
  | failTransfer (reason code : String)
  | initiateRefund
  | handleRefundResult (r : IntentResult)

/-- What a call decides about a row that does not change under it. -/
def EngineCall.plan : EngineCall → Transfer → Plan
  | .fundTransfer, t => Core.fundTransfer t
  | .initiateOnRamp, t => Core.initiateOnRamp l t
  | .handleOnRampResult r, t => Core.handleOnRampResult l r t
  | .handleSettlementResult r, t => Core.handleSettlementResult l r t
  | .handleOffRampResult r, t =>
    match offRampPrecheck t with
    | some p => p
    | none => if r.success then Core.completeTransfer l t else offRampFailure l r t
  | .completeTransfer, t => Core.completeTransfer l t
  | .failTransfer reason code, t => Core.failTransfer reason code t
  | .initiateRefund, t => Core.initiateRefund l t
  | .handleRefundResult r, t => Core.handleRefundResult r t

/-- A call with its tenant and what it finds in the other stores. -/
structure Invocation where
  tenantID : UUID
  lookups : Lookups
  call : EngineCall

abbrev EngineResult := Except EngineErr Unit

/-! ### Interleaved calls -/

/-- `loadTransfer`: a row of another tenant is not found. -/
def loadTransfer (tenantID : UUID) (k : Transfer → Prog Transfer OutboxEntry EngineResult) :
    Prog Transfer OutboxEntry EngineResult :=
  .load fun t => if t.tenantID ≠ tenantID then .ret (.error .transferNotFound) else k t

/-- Carry a plan out with `TransitionWithOutbox`, guarded by the version of the row it
was made for. -/
def carryOut : Plan → Prog Transfer OutboxEntry EngineResult
  | .refuse e => .ret (.error e)
  | .skip => .ret (.ok ())
  | .transition newStatus entries =>
    -- the version that was loaded, which need not be the current one
    .write t.version (fun row => row.advance newStatus) entries fun ok =>
      .ret (if ok then .ok () else .error .optimisticLock)

/-- A call as its store calls. Only `HandleOffRampResult` loads twice. -/
def Invocation.prog (inv : Invocation) : Prog Transfer OutboxEntry EngineResult :=
  loadTransfer inv.tenantID fun t =>
    match inv.call with
    | .handleOffRampResult r =>
      match offRampPrecheck t with
      | some p => carryOut t p
      | none =>
        loadTransfer inv.tenantID fun t' =>
          carryOut t' (if r.success then completeTransfer inv.lookups t' else offRampFailure inv.lookups r t')
    | call => carryOut t (call.plan inv.lookups t)

/-! ### Calls without interference -/

structure Store where
  transfers : UUID → Option Transfer
  outbox : List OutboxEntry

/-- `TransitionWithOutbox`: the status change and the entries in one transaction, or
nothing if the version has moved. -/
def Store.transitionWithOutbox (s : Store) (id : UUID) (newStatus : TransferStatus) (expectedVersion : ℕ)
    (entries : List OutboxEntry) : Option Store :=
  match s.transfers id with
  | none => none
  | some t =>
    if t.version ≠ expectedVersion then none
    else some ⟨Function.update s.transfers id (some (t.advance newStatus)), s.outbox ++ entries⟩

def Store.call (s : Store) (id : UUID) (inv : Invocation) : Store × EngineResult :=
  match s.transfers id with
  | none => (s, .error .transferNotFound)
  | some t =>
    if t.tenantID ≠ inv.tenantID then (s, .error .transferNotFound)
    else
      match inv.call.plan inv.lookups t with
      | .refuse e => (s, .error e)
      | .skip => (s, .ok ())
      | .transition newStatus entries =>
        match s.transitionWithOutbox id newStatus t.version entries with
        | none => (s, .error .optimisticLock)
        | some s' => (s', .ok ())

def Store.after (id : UUID) (s : Store) (inv : Invocation) : Store := (s.call id inv).1

def Store.holding (entries : List OutboxEntry) : Store :=
  ⟨Function.update (fun _ => none) t.id (some t), entries⟩

end Settla.Core
