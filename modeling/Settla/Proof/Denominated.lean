import Settla.Proof.BankDeposit
import Settla.Proof.Deposit

/-!
# The currency of a payment

A payment is recorded with its own currency or token contract, and its amount is added to the session, whose
currency nobody compares with it. So what a session has received and what is credited for it is a sum of
recorded payments (`sums_run`), of whatever currency they came in.
-/

namespace Settla.Core

open Lib Lib.Threads List

/-- The amount is what was there before and the amounts of some of the payments, each counted at most once. -/
def SumsTo {T : Type} (payments : List T) (amount : T → Decimal) (before r : Decimal) : Prop :=
  ∃ ts, ts <+ payments ∧ r = before + (ts.map amount).sum

/-- The payments recorded on a session are such; what it has received since and what has been credited
since are sums of them. -/
structure Denominated {T : Type} (Good : T → Prop) (payments : List T) (amount : T → Decimal)
    (before received : Decimal) (issued credits : List Decimal) : Prop where
  good : ∀ t ∈ payments, Good t
  received : SumsTo payments amount before received
  credited : ∀ c ∈ credits, c ∈ issued ∨ SumsTo payments amount before c

section Recorded

variable {S T E ι : Type} {tb : SessionTables S T} {R R' : SessionRules S T E} (am : SessionAmounts tb R)

def SessionAmounts.recorded (db : SessionDB S T E) : List T := db.txs.filter fun t => am.session t = am.id db.row

/-- An amount that a column can have, and that sums recorded payments. -/
def SessionAmounts.Counted (before : Decimal) (db : SessionDB S T E) (r : Decimal) : Prop :=
  am.Received r ∧ SumsTo (am.recorded db) am.amount before r

/-- A method carries a copy that sums recorded payments, with the one it recorded itself. -/
def SessionAmounts.Copied (R' : SessionRules S T E) (before : Decimal) (db : SessionDB S T E)
    (q : Pos (SessionStep S T E) SessionResult) : Prop :=
  ∃ s h, Carries R' s h q ∧ am.id s = am.id db.row ∧
    am.Counted before db (am.stored (am.received s + h.amount am.amount)) ∧
    (h = .loaded → am.Counted before db (am.received s))

def SessionAmounts.Sums (Good : T → Prop) (credits : List E → List Decimal) (db₀ db : SessionDB S T E) : Prop :=
  am.Received (am.received db.row) ∧
    Denominated Good (am.recorded db) am.amount (am.received db₀.row) (am.received db.row) (credits db₀.outbox)
      (credits db.outbox)

variable {am} {before r : Decimal} {db db' db₀ : SessionDB S T E} {q : Pos (SessionStep S T E) SessionResult} {t : T} {s : S}

theorem SumsTo.mono {amount : T → Decimal} {payments payments' : List T} (hsub : payments <+ payments')
    (h : SumsTo payments amount before r) : SumsTo payments' amount before r := by
  obtain ⟨ts, hts, hr⟩ := h
  exact ⟨ts, hts.trans hsub, hr⟩

theorem SessionAmounts.Counted.mono (hsub : am.recorded db <+ am.recorded db') (h : am.Counted before db r) :
    am.Counted before db' r := ⟨h.1, h.2.mono hsub⟩

theorem SessionAmounts.Copied.mono (hsub : am.recorded db <+ am.recorded db') (hid : am.id db'.row = am.id db.row)
    (h : am.Copied R' before db q) : am.Copied R' before db' q := by
  obtain ⟨s, h, hq, hs, hwritten, hloaded⟩ := h
  exact ⟨s, h, hq, hs.trans hid.symm, hwritten.mono hsub, fun hh => (hloaded hh).mono hsub⟩

theorem SessionAmounts.copied_loaded (hq : Carries R' s .loaded q) (hid : am.id s = am.id db.row)
    (h : am.Counted before db (am.received s)) : am.Copied R' before db q := by
  refine ⟨s, .loaded, hq, hid, ?_, fun _ => h⟩
  rw [Held.amount_loaded, add_zero, am.stored_received _ h.1]
  exact h

theorem SessionAmounts.recorded_record (ht : am.session t = am.id db.row) :
    am.recorded { db with row := tb.accumulate t db.row, txs := db.txs ++ [tb.insert t] } =
      am.recorded db ++ [tb.insert t] := by
  simp [SessionAmounts.recorded, am.id_accumulate, filter_append, am.session_insert, ht]

/-- A payment that is recorded is counted with the amount its row has. -/
theorem SessionAmounts.Counted.record (h : am.Counted before db r) (hpay : am.Payment t)
    (ht : am.session t = am.id db.row) :
    am.Counted before { db with row := tb.accumulate t db.row, txs := db.txs ++ [tb.insert t] }
      (am.stored (r + am.amount t)) := by
  obtain ⟨hr, ts, hts, rfl⟩ := h
  obtain ⟨hadd, hreceived⟩ := am.stored_add _ t hr hpay
  rw [hadd]
  refine ⟨hreceived, ts ++ [tb.insert t], ?_, ?_⟩
  · rw [am.recorded_record ht]
    exact hts.append (Sublist.refl _)
  · simp [am.amount_insert, add_assoc]

section

variable (am) (Good : T → Prop) (credits : List E → List Decimal) (hle : R'.Le R)
  (hgood : ∀ s t, R'.Pays s t → Good (tb.insert t))
  (happend : ∀ xs ys, credits (xs ++ ys) = credits xs ++ credits ys)
  (hcredits : ∀ s h s' es, R'.Edge s h s' es → ∀ c ∈ credits es,
    c = am.received s' ∧ (h = .loaded ∨ ∀ r, am.stored r = r))
include hle hgood happend hcredits

/-- **What a store call does to the sums.** The row and every copy of it stay sums of recorded payments. -/
theorem sums_step {g : SessionStep S T E} {a : SessionAnswer} (hG : SessionDoes tb R' g a db db' q)
    (hg : am.Copied R' (am.received db₀.row) db (.before g)) (h : am.Sums Good credits db₀ db) :
    am.Sums Good credits db₀ db' ∧ am.recorded db <+ am.recorded db' ∧ am.id db'.row = am.id db.row ∧
      am.Copied R' (am.received db₀.row) db' q := by
  obtain ⟨s₀, h₀, hc, hid, hwritten, hloaded⟩ := hg
  obtain ⟨hreceived, hsums⟩ := id h
  have hcounted : am.Counted (am.received db₀.row) db (am.received db.row) := ⟨hreceived, hsums.received⟩
  cases hG with
  | refused => exact ⟨h, Sublist.refl _, rfl, s₀, h₀, trivial, hid, hwritten, hloaded⟩
  | loaded hq => exact ⟨h, Sublist.refl _, rfl, am.copied_loaded hq rfl hcounted⟩
  | looked hq =>
    obtain ⟨rfl, hh, -⟩ := hc
    exact ⟨h, Sublist.refl _, rfl, am.copied_loaded hq hid (hloaded hh)⟩
  | tenant hq =>
    obtain ⟨rfl, hh⟩ := hc
    exact ⟨h, Sublist.refl _, rfl, am.copied_loaded hq hid (hloaded hh)⟩
  | @recorded s t _ _ _ hq =>
    obtain ⟨rfl, hh, hpays⟩ := hc
    obtain ⟨hsession, hpay⟩ := am.pays _ _ (hle.1 _ _ hpays)
    have ht : am.session t = am.id db.row := hsession.trans hid
    have hrecorded := am.recorded_record ht
    have hsub : am.recorded db <+ am.recorded { db with row := tb.accumulate t db.row, txs := db.txs ++ [tb.insert t] } := by
      rw [hrecorded]
      exact sublist_append_left _ _
    obtain ⟨hrow, hrowSums⟩ := hcounted.record hpay ht
    rw [← am.received_accumulate] at hrow hrowSums
    refine ⟨⟨hrow, ?_, hrowSums, fun c hc => (hsums.credited c hc).imp_right (·.mono hsub)⟩, hsub, am.id_accumulate t _,
      s, .recorded t, hq, hid.trans (am.id_accumulate t _).symm, (hloaded hh).record hpay ht, nofun⟩
    rw [hrecorded]
    exact forall_mem_snoc hsums.good (hgood _ _ hpays)
  | @written s es _ _ _ hv hq =>
    obtain ⟨hids, -, hwrites⟩ := am.edge _ _ _ _ (hle.2 _ _ _ _ hc)
    have hrecorded : am.recorded { db with row := tb.update db.row s, outbox := db.outbox ++ es } = am.recorded db := by
      simp only [SessionAmounts.recorded, am.id_update]
    have hsub : am.recorded db <+ am.recorded { db with row := tb.update db.row s, outbox := db.outbox ++ es } := by
      rw [hrecorded]
    have hrow : am.Counted (am.received db₀.row) db (am.stored (am.received s)) := hwrites ▸ hwritten
    refine ⟨?_, hsub, am.id_update _ _, s, .written, hq, hids.trans (hid.trans (am.id_update _ _).symm), ?_, nofun⟩
    · refine ⟨?_, ?_, ?_, fun c hcredit => ?_⟩
      · rw [am.received_update]
        exact hrow.1
      · rw [hrecorded]
        exact hsums.good
      · rw [am.received_update]
        exact hrow.2.mono hsub
      rw [happend, mem_append] at hcredit
      rcases hcredit with hcredit | hcredit
      · exact (hsums.credited c hcredit).imp_right (·.mono hsub)
      -- the credit is for the copy, which has what its row will have
      obtain ⟨rfl, rfl | hstored⟩ := hcredits _ _ _ _ hc c hcredit
      · rw [Held.amount_loaded, add_zero] at hwrites
        rw [hwrites]
        exact .inr ((hloaded rfl).2.mono hsub)
      · rw [hstored] at hrow
        exact .inr (hrow.2.mono hsub)
    · rw [Held.amount_written, add_zero]
      exact hrow.mono hsub

/-- **What is received and credited along a run sums recorded payments**, and they are such as are delivered. -/
theorem sums_run {code : ι → SessionProg S T E} (hcode : ∀ c s h, Sessional tb R' s h (code c))
    (hdb : ∀ t ∈ am.recorded db, Good t) (hrow : am.Received (am.received db.row)) (as : List (Action ι SessionAnswer)) :
    am.Sums Good credits db (run (System.act code) (System.init db) as).state := by
  have hkeeps : Keeps (SessionDoes tb R') code (fun _ _ _ => True)
      fun db' ps => am.Sums Good credits db db' ∧ ∀ q ∈ ps, am.Copied R' (am.received db.row) db' q := by
    rintro db₁ ps a db₂ ps' ⟨hsums, hps⟩ - heff
    cases heff with
    | start c => exact ⟨hsums, forall_mem_snoc hps (am.copied_loaded (hcode c _ _).2 rfl ⟨hsums.1, hsums.2.received⟩)⟩
    | drop i => exact ⟨hsums, fun q hq => hps q (mem_of_mem_eraseIdx hq)⟩
    | idle i a => exact ⟨hsums, hps⟩
    | step i a g db₂ q hi hG =>
      obtain ⟨hsums', hsub, hid, hq⟩ :=
        sums_step am Good credits hle hgood happend hcredits hG (hps _ (List.mem_of_getElem? hi)) hsums
      exact ⟨hsums', forall_mem_set (fun q' hq' => (hps q' hq').mono hsub hid) hq⟩
  have hmeets : Meets code (fun _ _ _ => True) (System.init db) as :=
    along_of_forall (p := fun _ => True) (fun _ _ => trivial) _
  have hstart : am.Sums Good credits db db := ⟨hrow, hdb, ⟨[], nil_sublist _, by simp⟩, fun c hc => .inl hc⟩
  exact (run_keeps (fun c => (hcode c db.row .loaded).1) hkeeps (init_following db) ⟨hstart, forall_mem_nil _⟩ hmeets).2.1

end

end Recorded

/-- Calls that bring payments with this token contract only. -/
def TokenCall (contract : String) : Type :=
  { c : SessionCall Deposit.Call // ∀ tx, c.call = .handleTransactionDetected tx → tx.tokenContract = contract }

/-- Calls that bring credits in this currency only. -/
def CurrencyCall (currency : Currency) : Type :=
  { c : SessionCall BankDeposit.Call // ∀ credit, c.call = .handleBankCreditReceived credit → credit.currency = currency }

/-- The rules of the crypto engine, for payments with this token contract. -/
def tokenRules (contract : String) : SessionRules DepositSession DepositTransaction DepositEntry where
  Pays s t := Deposit.rules.Pays s t ∧ t.tokenContract = contract
  Edge := Deposit.rules.Edge

theorem tokenRules_le (contract : String) : (tokenRules contract).Le Deposit.rules :=
  ⟨fun _ _ h => h.1, fun _ _ _ _ h => h⟩

theorem token_credits {contract : String} {s s' : DepositSession} {h : Held DepositTransaction} {es : List DepositEntry}
    (hedge : (tokenRules contract).Edge s h s' es) {c : Decimal} (hc : c ∈ Deposit.credits es) :
    c = s'.receivedAmount ∧ h = .loaded := by
  obtain ⟨_, -, ⟨-, hloaded⟩, -, -, -, hcredits⟩ := hedge
  rw [hcredits] at hc
  split at hc
  · rename_i hst
    exact ⟨mem_singleton.1 hc, hloaded hst⟩
  · cases hc

theorem bank_credits {A : IncomingBankCredit → Prop} {s s' : BankDepositSession} {h : Held BankDepositTransaction}
    {es : List BankDepositEntry} (hedge : (BankDeposit.rulesFor A).Edge s h s' es) {c : Decimal}
    (hc : c ∈ BankDeposit.credits es) : c = s'.receivedAmount := by
  rw [hedge.2.credits] at hc
  split at hc
  · exact mem_singleton.1 hc
  · cases hc

/-- **Payments are in the token or the currency of the session if all that are delivered are**: what a session
receives and what is credited for it are then sums of recorded payments in that token or currency, whatever
the calls, their interleaving and the answers of the store. -/
theorem denominated (contract : CryptoChain → String → String) (db : Deposit.DB) (bank : BankDeposit.DB)
    (as : List (Action (TokenCall (contract db.row.chain db.row.token)) SessionAnswer))
    (bs : List (Action (CurrencyCall bank.row.currency) SessionAnswer))
    (hdb : ∀ t ∈ Deposit.recorded db, t.tokenContract = contract db.row.chain db.row.token)
    (hbank : ∀ t ∈ BankDeposit.recorded bank, t.currency = bank.row.currency)
    (hrow : 0 ≤ db.row.receivedAmount ∧ numeric8 db.row.receivedAmount = db.row.receivedAmount) :
    let db' := (run (System.act fun c => Deposit.program c.1) (System.init db) as).state
    let bank' := (run (System.act fun c => BankDeposit.program c.1) (System.init bank) bs).state
    Denominated (·.tokenContract = contract db.row.chain db.row.token) (Deposit.recorded db') (·.amount)
      db.row.receivedAmount db'.row.receivedAmount (Deposit.credits db.outbox) (Deposit.credits db'.outbox) ∧
    Denominated (·.currency = bank.row.currency) (BankDeposit.recorded bank') (·.amount) bank.row.receivedAmount
      bank'.row.receivedAmount (BankDeposit.credits bank.outbox) (BankDeposit.credits bank'.outbox) := by
  constructor
  · refine (sums_run Deposit.amounts (·.tokenContract = contract db.row.chain db.row.token) Deposit.credits
      (tokenRules_le _) (fun _ _ h => h.2) Deposit.credits_append
      (fun s h s' es hedge c hc => (token_credits hedge hc).imp_right .inl) (fun c s h => ?_) hdb hrow as).2
    have hle : (Deposit.rulesFor c.1.call).Le (tokenRules (contract db.row.chain db.row.token)) := by
      refine ⟨?_, fun _ _ _ _ hedge => ⟨_, hedge.1⟩⟩
      rintro s t ⟨tx, htx, rfl⟩
      exact ⟨⟨_, tx, htx, rfl⟩, c.2 tx htx⟩
    exact (Deposit.program_sessional c.1).mono hle
  · refine (sums_run BankDeposit.amounts (·.currency = bank.row.currency) BankDeposit.credits
      (BankDeposit.rulesFor_le (·.currency = bank.row.currency)) ?_ (fun _ _ => filterMap_append)
      (fun s h s' es hedge c hc => ⟨bank_credits hedge hc, .inr fun _ => rfl⟩)
      (fun c s h => BankDeposit.program_sessional c.1 c.2) hbank trivial bs).2
    rintro _ _ ⟨credit, hcredit, rfl⟩
    exact hcredit

def oneCall {ι : Type} (c : ι) : List (Action ι SessionAnswer) := .start c :: List.replicate 8 (.step 0 {})

/-- A session that received a payment before, in a database with a payment of another session in another token. -/
def sampleDB : Deposit.DB :=
  let tx (id : UUID) (token : String) : DepositTransaction :=
    { Deposit.newDepositTx Deposit.sampleSession { Deposit.sampleTx "a" 10 with tokenContract := token } with sessionID := id }
  ⟨{ Deposit.sampleSession with receivedAmount := 10 }, [tx 7 "USDT", tx 8 "USDC"], []⟩

theorem denominated_oneCall :
    let as : List (Action (TokenCall "USDT") SessionAnswer) :=
      oneCall ⟨⟨1, .handleTransactionDetected (Deposit.sampleTx "b" 10)⟩, by rintro _ ⟨⟩; rfl⟩
    let bs : List (Action (CurrencyCall "GBP") SessionAnswer) :=
      oneCall ⟨⟨1, .handleBankCreditReceived (sampleCredit "a" 10)⟩, by rintro _ ⟨⟩; rfl⟩
    let db' := (run (System.act fun c => Deposit.program c.1) (System.init sampleDB) as).state
    let bank' := (run (System.act fun c => BankDeposit.program c.1) (System.init ⟨sampleBankSession, [], []⟩) bs).state
    Denominated (·.tokenContract = "USDT") (Deposit.recorded db') (·.amount) sampleDB.row.receivedAmount
      db'.row.receivedAmount (Deposit.credits sampleDB.outbox) (Deposit.credits db'.outbox) ∧
    Denominated (·.currency = "GBP") (BankDeposit.recorded bank') (·.amount) sampleBankSession.receivedAmount
      bank'.row.receivedAmount (BankDeposit.credits []) (BankDeposit.credits bank'.outbox) :=
  denominated (fun _ token => token) sampleDB ⟨sampleBankSession, [], []⟩ _ _ (by decide +kernel) (forall_mem_nil _)
    (by decide +kernel)

/-- **Another token or currency is credited as the session's own.** -/
theorem foreign_credited :
    (let as := oneCall ⟨1, .handleTransactionDetected { Deposit.sampleTx "a" 10 with tokenContract := "USDC" }⟩ ++
        .start ⟨1, .handleTransactionConfirmed "a" 19⟩ :: List.replicate 8 (.step 1 {})
      let db := (run (System.act Deposit.program) (System.init ⟨Deposit.sampleSession, [], []⟩) as).state
      db.txs.map (·.tokenContract) = ["USDC"] ∧ db.row.token = "USDT" ∧ Deposit.credits db.outbox = [10]) ∧
    (let as := oneCall ⟨1, .handleBankCreditReceived { sampleCredit "a" 100 with currency := "USD" }⟩
      let db := (run (System.act BankDeposit.program) (System.init ⟨sampleBankSession, [], []⟩) as).state
      db.txs.map (·.currency) = ["USD"] ∧ db.row.currency = "GBP" ∧ BankDeposit.credits db.outbox = [100]) := by
  decide +kernel

end Settla.Core
