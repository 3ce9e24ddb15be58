import Settla.Core.BankDeposit

/-!
# The pool of virtual accounts

`CreateSession` takes an account from the pool and then stores the session, in two transactions. When
a session expires or is cancelled, an intent recycles its account, by its number only.
-/

namespace Settla.BankDeposit

open Settla.Core Lib.Threads

/-- The table `virtual_account_pool`. Account numbers are unique. -/
structure AccountPool where
  accounts : List VirtualAccountPool
  unique : (accounts.map (·.accountNumber)).Nodup

def VirtualAccountPool.mark (va : VirtualAccountPool) (accountNumber : String) (available : Bool) : VirtualAccountPool :=
  if va.accountNumber = accountNumber then { va with available := available } else va

def AccountPool.mark (pool : AccountPool) (accountNumber : String) (available : Bool) : AccountPool where
  accounts := pool.accounts.map (VirtualAccountPool.mark · accountNumber available)
  unique := by
    have hsame : (fun va : VirtualAccountPool => va.accountNumber) ∘ (VirtualAccountPool.mark · accountNumber available) =
        fun va => va.accountNumber := by
      funext va
      simp only [Function.comp_apply, VirtualAccountPool.mark]
      split <;> rfl
    rw [List.map_map, hsame]
    exact pool.unique

/-- The oldest account that is available and not locked by another transaction. -/
def AccountPool.next (pool : AccountPool) (tenantID : UUID) (currency : Currency) (locked : List String) :
    Option VirtualAccountPool :=
  pool.accounts.find? fun va =>
    va.tenantID = tenantID ∧ va.currency = currency ∧ va.available ∧ va.accountType = .temporary ∧
      va.accountNumber ∉ locked

/-- The pool, the sessions in the order of their creation, the payments and the outbox. -/
structure BankStore where
  pool : AccountPool
  rows : List BankDepositSession
  txs : List BankDepositTransaction
  outbox : List BankDepositEntry

structure BankTenant where
  active : Bool
  bankConfig : TenantBankConfig

/-- `CreateSessionRequest`; an optional field is none when it is empty. -/
structure CreateSessionRequest where
  idempotencyKey : String
  currency : Currency
  (expectedAmount minAmount maxAmount : Decimal)
  mismatchPolicy : Option PaymentMismatchPolicy
  settlementPref : Option SettlementPreference

structure BankAnswer extends SessionAnswer where
  tenant : BankTenant := ⟨true, ⟨true, ["GBP"], none⟩⟩
  /-- the ID drawn for a new session -/
  id : UUID := default
  /-- the accounts that are locked by other transactions -/
  locked : List String := []

inductive BankStep
  /-- a call of a method on the session in a row -/
  | onRow (i : ℕ) (step : SessionStep BankDepositSession BankDepositTransaction BankDepositEntry)
  | loadTenant | getSessionByIdempotencyKey | dispenseVirtualAccount
  /-- `CreateSessionWithOutbox` -/
  | persist (s : BankDepositSession)
  | recycleVirtualAccount (accountNumber : String)

/-- The errors of `CreateSession`, of a method on a session, and of the recycling worker. -/
inductive BankErr
  | loadingTenant
  | tenantSuspended (tenantID : UUID)
  | bankDepositsDisabled (tenantID : UUID)
  | currencyNotSupported (currency : Currency) (tenantID : UUID)
  | amountTooLow (amount : Decimal)
  | dispensing
  | virtualAccountPoolEmpty (currency : Currency) (tenantID : UUID)
  | persisting
  | session (err : SessionErr)
  | recycling (accountNumber : String)

/-- What a method returns; only `CreateSession` returns a session. -/
abbrev BankResult := Except BankErr (Option BankDepositSession)

abbrev BankProg := Prog BankStore BankAnswer BankStep BankResult

/-! ## CreateSession -/

/-- The session `CreateSession` builds for an account. -/
def newSession (id tenantID : UUID) (config : TenantBankConfig) (req : CreateSessionRequest) (va : VirtualAccountPool) :
    BankDepositSession where
  id := id
  tenantID := tenantID
  idempotencyKey := req.idempotencyKey
  status := .pendingPayment
  version := 1
  bankingPartnerID := va.bankingPartnerID
  accountNumber := va.accountNumber
  accountType := .temporary
  currency := req.currency
  expectedAmount := req.expectedAmount
  minAmount := if req.minAmount = 0 then req.expectedAmount else req.minAmount
  maxAmount := if req.maxAmount = 0 then req.expectedAmount else req.maxAmount
  receivedAmount := 0
  feeAmount := 0
  netAmount := 0
  mismatchPolicy := (req.mismatchPolicy.or config.defaultMismatchPolicy).getD .accept
  settlementPref := req.settlementPref.getD .hold
  settlementTransferID := none
  payerName := ""
  payerReference := ""
  bankReference := ""
  failureReason := .text ""
  failureCode := ""

def createdEntries (s : BankDepositSession) : List BankDepositEntry :=
  entry s (.event .created (sessionData s s.expectedAmount)) ::
    bankDepositNotificationEntries s .created (.created s.expectedAmount s.currency) (sessionData s s.expectedAmount)

def persist (s : BankDepositSession) : BankProg :=
  .act (.persist s)
    (fun a st =>
      if a.reply.applied then { st with rows := st.rows ++ [s], outbox := st.outbox ++ createdEntries s } else st)
    fun a _ => if a.reply = .ok then .ret (.ok (some s)) else .ret (.error .persisting)

/-- Take an account and store a session for it. -/
def dispense (tenantID : UUID) (config : TenantBankConfig) (req : CreateSessionRequest) : BankProg :=
  .act .dispenseVirtualAccount
    (fun a st => match st.pool.next tenantID req.currency a.locked with
      | some va => if a.reply.applied then { st with pool := st.pool.mark va.accountNumber false } else st
      | none => st)
    fun a st =>
      if a.reply ≠ .ok then .ret (.error .dispensing)
      else match st.pool.next tenantID req.currency a.locked with
        | none => .ret (.error (.virtualAccountPoolEmpty req.currency tenantID))
        | some va => persist (newSession a.id tenantID config req va)

def createSession (tenantID : UUID) (req : CreateSessionRequest) : BankProg :=
  .act .loadTenant (fun _ st => st) fun a _ =>
    let config := a.tenant.bankConfig
    if a.reply ≠ .ok then .ret (.error .loadingTenant)
    else if ¬ a.tenant.active then .ret (.error (.tenantSuspended tenantID))
    else if ¬ config.bankDepositsEnabled then .ret (.error (.bankDepositsDisabled tenantID))
    else if req.currency ∉ config.bankSupportedCurrencies then
      .ret (.error (.currencyNotSupported req.currency tenantID))
    else if req.expectedAmount ≤ 0 then .ret (.error (.amountTooLow req.expectedAmount))
    else if req.idempotencyKey = "" then dispense tenantID config req
    else
      .act .getSessionByIdempotencyKey (fun _ st => st) fun a st =>
        match st.rows.find? fun s => s.tenantID = tenantID ∧ s.idempotencyKey = req.idempotencyKey with
        -- a lookup that fails is taken for one that finds nothing
        | some s => if a.reply = .ok then .ret (.ok (some s)) else dispense tenantID config req
        | none => dispense tenantID config req

/-! ## All calls -/

def onRow (i : ℕ) : Focus DB SessionAnswer (SessionStep BankDepositSession BankDepositTransaction BankDepositEntry)
    SessionResult BankStore BankAnswer BankStep BankResult where
  get st := st.rows[i]?.map fun row => ⟨row, st.txs, st.outbox⟩
  put db st := { st with rows := st.rows.set i db.row, txs := db.txs, outbox := db.outbox }
  answer a := a.toSessionAnswer
  label := .onRow i
  result
    | .ok () => .ok none
    | .error err => .error (.session err)
  missing := .error (.session (.loadingSession "get session"))

def handleRecycleAccount (p : RecycleVirtualAccountPayload) : BankProg :=
  .act (.recycleVirtualAccount p.accountNumber)
    (fun a st => if a.reply.applied then { st with pool := st.pool.mark p.accountNumber true } else st)
    fun a _ => if a.reply = .ok then .ret (.ok none) else .ret (.error (.recycling p.accountNumber))

/-- What is called: by the API, by the expiry worker, and for messages. -/
inductive BankCall
  | createSession (tenantID : UUID) (req : CreateSessionRequest)
  | onSession (i : ℕ) (c : SessionCall Call)
  | recycle (p : RecycleVirtualAccountPayload)

def bankProgram : BankCall → BankProg
  | .createSession tenantID req => createSession tenantID req
  | .onSession i c => (program c).focus (onRow i)
  | .recycle p => handleRecycleAccount p

end Settla.BankDeposit
