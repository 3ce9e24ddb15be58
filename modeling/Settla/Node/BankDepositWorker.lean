import Settla.Core.BankDeposit

/-!
# The bank deposit worker

Two consumers: one for the credits the gateway receives from a bank, one for the outbox entries of the
engine. Among the latter is `bank_deposit.payment.received`, written when the engine has taken a
credit, which the worker hands to it as another credit, without a bank reference.
-/

namespace Settla.Node

/-- `inboundPayload`. The amount is none if it is not a number. -/
structure InboundPayload where
  (partnerID accountNumber : String)
  amount : Option Decimal
  (currency payerName payerAccountNumber payerReference bankReference : String)

structure VirtualAccountIndex where
  tenantID : UUID
  accountType : VirtualAccountType

def InboundPayload.credit (p : InboundPayload) (amount : Decimal) : IncomingBankCredit :=
  ⟨amount, p.currency, p.payerName, p.payerAccountNumber, p.payerReference, p.bankReference⟩

/-- The idempotency key of `CreateSessionForPermanentAccount`. -/
def permanentKey (accountNumber bankReference : String) : String :=
  "permanent:" ++ accountNumber ++ ":" ++ bankReference

/-- The session is the one a credit is routed to: that of the credit for a permanent account, else
one that waits for a payment. -/
def routesTo (index : VirtualAccountIndex) (p : InboundPayload) (s : BankDepositSession) : Bool :=
  s.accountNumber = p.accountNumber &&
    match index.accountType with
    | .permanent => s.tenantID = index.tenantID && s.idempotencyKey = permanentKey p.accountNumber p.bankReference
    | .temporary => s.status = .pendingPayment

/-- `handleInboundBankCredit`. A credit that is routed to another session does nothing to this one. -/
def handleInboundBankCredit (index : Option VirtualAccountIndex) (p : InboundPayload) : BankDeposit.Program :=
  if p.accountNumber = "" ∨ p.bankReference = "" then .ret (.ok ())
  else
    match index, p.amount with
    | some index, some amount =>
      .act .getSession (fun _ db => db) fun a db =>
        if a.reply = .ok ∧ routesTo index p db.row then
          BankDeposit.handleBankCreditReceived db.row.tenantID (p.credit amount)
        else if a.reply ≠ .ok ∧ index.accountType = .permanent then
          .ret (.error (.loadingSession "create session for permanent account"))
        else .ret (.ok ())
    | _, _ => .ret (.ok ())

def ownCredit (p : BankDepositSessionEventPayload) : IncomingBankCredit := ⟨p.amount, p.currency, "", "", "", ""⟩

def handlePaymentReceived (p : BankDepositSessionEventPayload) : BankDeposit.Program :=
  BankDeposit.handleBankCreditReceived p.tenantID (ownCredit p)

def creditOutcome (treasuryErr : Option String) : Deposit.Result :=
  match treasuryErr with
  | some err => { success := false, error := "treasury credit failed: " ++ err }
  | none => { success := true }

/-- `handleEvent` on an outbox entry, as far as it works on the session. -/
def handleBankDepositEvent (treasuryErr : Option String) (e : BankDepositEntry) : BankDeposit.Program :=
  match e.body with
  | .event .paymentReceived p => handlePaymentReceived p
  | .credit p => BankDeposit.handleCreditResult p.tenantID (creditOutcome treasuryErr)
  | .settle p => BankDeposit.handleSettlementResult p.tenantID { success := true }
  | _ => .ret (.ok ())

structure PartnerRegistry where
  partners : List String

def PartnerRegistry.get (reg : PartnerRegistry) (id : String) : Option String :=
  if id ∈ reg.partners then some id else none

/-- `RefundPaymentRequest`; the worker does not set the bank reference. -/
structure RefundPaymentRequest where
  (sessionID tenantID : UUID)
  accountNumber : String
  amount : Decimal
  currency : Currency
  reason : String

/-- `handleRefund`: the partner that is called, and the request. Without a partner the intent is
acknowledged all the same. -/
def handleRefund (reg : Option PartnerRegistry) (p : RefundBankDepositPayload) : Option (String × RefundPaymentRequest) :=
  match reg with
  | none => none
  | some reg =>
    -- by the account number, not by the session's partner
    match reg.get p.accountNumber with
    | none => none
    | some partner => some (partner, ⟨p.sessionID, p.tenantID, p.accountNumber, p.amount, p.currency, p.reason⟩)

/-- What is delivered to the worker or called otherwise, when the bank sends these credits. -/
inductive BankMessage (credits : List InboundPayload)
  | inbound (index : Option VirtualAccountIndex) (p : { p // p ∈ credits })
  | outbox (e : BankDepositEntry) (treasuryErr : Option String)
  /-- by the expiry worker -/
  | expire (tenantID : UUID)
  /-- by the API -/
  | cancel (tenantID : UUID)

def bankDepositHandler {credits : List InboundPayload} : BankMessage credits → BankDeposit.Program
  | .inbound index p => handleInboundBankCredit index p
  | .outbox e treasuryErr => handleBankDepositEvent treasuryErr e
  | .expire tenantID => BankDeposit.expireSession tenantID
  | .cancel tenantID => BankDeposit.cancelSession tenantID

end Settla.Node
