import Settla.Proof.Deposit

/-!
# Credits and confirmations

`HandleTransactionConfirmed` looks neither at the transaction nor at its confirmations: it credits all
that the session has received. `depth` gives the confirmations the chain has for a transaction.
-/

namespace Settla.Deposit

open Settla.Core Lib Lib.Threads List

/-- A call, the answers it gets, and the confirmations of the transactions at the time. -/
structure Round where
  call : SessionCall Call
  answers : List SessionAnswer := List.replicate 8 {}
  depth : DepositTransaction → ℤ := fun _ => 0

/-- A call is made, and returns or crashes. -/
def step (db : DB) (x : Round) : DB := ((program x.call).exec x.answers db).1

/-- The transactions of the session that have the required confirmations. -/
def confirmedTxs (depth : DepositTransaction → ℤ) (db : DB) : List DepositTransaction :=
  (recorded db).filter fun t => requiredConfirmations db.row ≤ depth t

def Open (st : DepositSessionStatus) : Prop := st ∈ [.pendingPayment, .detected, .expired, .cancelled, .failed]

instance : DecidablePred Open := fun _ => inferInstanceAs (Decidable (_ ∈ _))

def Finds (db : DB) (tx : IncomingTransaction) (answers : List SessionAnswer) : Prop :=
  (∃ a ∈ answers[1]?, a.reply = .ok) ∧ db.txs.any (tables.sameKey (newDepositTx db.row tx)) = true

/-- A new payment comes only before the session is CONFIRMED, and its confirmation only when
all its transactions have the required confirmations. -/
def Timely (db : DB) (x : Round) : Prop :=
  match x.call.call with
  | .handleTransactionDetected tx => Open db.row.status ∨ Finds db tx x.answers
  | .handleTransactionConfirmed _ _ =>
    db.row.status = .detected → ∀ t ∈ recorded db, requiredConfirmations db.row ≤ x.depth t
  | _ => True

instance (db : DB) (tx : IncomingTransaction) (answers : List SessionAnswer) : Decidable (Finds db tx answers) :=
  inferInstanceAs (Decidable (_ ∧ _))

instance : ∀ (db : DB) (x : Round), Decidable (Timely db x) := by
  intro db x
  unfold Timely
  split <;> infer_instance

/-- The credits of a session that has received `r`, by its status. -/
def Credited (r : Decimal) (cs : List Decimal) : DepositSessionStatus → Prop
  | .pendingPayment | .detected | .expired | .cancelled | .confirmed => cs = []
  | .crediting | .credited | .settling | .settled | .held => cs = [r]
  | .failed => cs.length ≤ 1

/-- What a call knows before a store call: its copy is the row. -/
def At (c : Call) (db : DB) : Pos (SessionStep DepositSession DepositTransaction DepositEntry) SessionResult → Prop
  | .before (.findTx s t) | .before (.recordTx s t) => s = db.row ∧ (rulesOf c).Pays s t
  | .before (.getTenant s) => s = db.row
  | .before (.transition s es) =>
    (db.row.status, s.status) ∈ c.moves ∧
      credits es = if s.status = .crediting then [db.row.receivedAmount] else []
  | _ => True

variable {c : Call} {db db₀ : DB} {s : DepositSession} {t : DepositTransaction}
  {q : Pos (SessionStep DepositSession DepositTransaction DepositEntry) SessionResult}

theorem at_loaded (hq : Carries (rulesOf c) db.row .loaded q) : At c db q := by
  cases q with
  | returned x => trivial
  | before g =>
    cases g with
    | getSession => trivial
    | findTx | recordTx => exact ⟨hq.1, hq.1 ▸ hq.2.2⟩
    | getTenant s' => exact hq.1
    | transition s' es =>
      obtain ⟨hmove, -, -, -, hr, hcred⟩ := hq
      have hr' : s'.receivedAmount = db.row.receivedAmount := hr.trans (add_zero _)
      exact ⟨hmove, hr' ▸ hcred⟩

theorem at_recorded (hpay : (rulesOf c).Pays s t) (hst : db.row.status = s.status)
    (hq : Carries (rulesOf c) s (.recorded t) q) : At c db q := by
  cases q with
  | returned x => trivial
  | before g =>
    cases g with
    | getSession => trivial
    | findTx | recordTx => exact nomatch hq.2.1
    | getTenant s' => exact nomatch hq.2
    | transition s' es =>
      obtain ⟨hmove, -, -, -, -, hcred⟩ := hq
      obtain ⟨tx, rfl, -⟩ := hpay
      have hdet : s'.status = .detected := by
        simp only [Call.moves, mem_cons, not_mem_nil, or_false, Prod.mk.injEq] at hmove
        rcases hmove with ⟨-, h⟩ | ⟨-, h⟩ | ⟨-, h⟩ <;> exact h
      rw [hdet] at hcred
      exact ⟨hst ▸ hmove, by rw [hdet]; exact hcred⟩

theorem at_written (hq : Carries (rulesOf c) s .written q) : At c db q := by
  cases q with
  | returned x => trivial
  | before g =>
    cases g with
    | getSession => trivial
    | findTx | recordTx => exact nomatch hq.2.1
    | getTenant s' => exact nomatch hq.2
    | transition s' es => exact absurd rfl hq.2.1.1

def Call.detects : Call → Bool
  | .handleTransactionDetected _ => true
  | _ => false

def Call.confirms : Call → Bool
  | .handleTransactionConfirmed _ _ => true
  | _ => false

/-- What holds in the course of a call that found `db₀`. -/
structure Kept (c : Call) (db₀ db : DB)
    (q : Pos (SessionStep DepositSession DepositTransaction DepositEntry) SessionResult) : Prop where
  always : (sessionTally amounts db₀.row.id).Always db
  known : (sessionTally amounts db₀.row.id).Known q
  holds : (sessionTally amounts db₀.row.id).Holds db q
  balanced : amounts.Balanced db
  credited : Credited db.row.receivedAmount (credits db.outbox) db.row.status
  here : At c db q
  taking : c.detects = true → Open db.row.status
  same : c.detects = false → recorded db = recorded db₀
  /-- a credit is for what was recorded before the call -/
  news : credits db.outbox = credits db₀.outbox ∨
    c.confirms = true ∧ credits db.outbox = credits db₀.outbox ++ [((recorded db₀).map (·.amount)).sum]

section

variable {st st' : DepositSessionStatus} {r : Decimal} {cs : List Decimal}

theorem Credited.move (h : Credited r cs st) (hmove : (st, st') ∈ c.moves) :
    Credited r (cs ++ if st' = .crediting then [r] else []) st' := by
  cases c <;> simp only [Call.moves, mem_cons, not_mem_nil, or_false, Prod.mk.injEq] at hmove <;>
    rcases hmove with ⟨rfl, rfl⟩ | ⟨rfl, rfl⟩ | ⟨rfl, rfl⟩ | ⟨rfl, rfl⟩ <;> simp_all [Credited]

theorem Credited.receive (h : Credited r cs st) (hopen : Open st) (r' : Decimal) : Credited r' cs st := by
  simp only [Open, mem_cons, not_mem_nil, or_false] at hopen
  rcases hopen with rfl | rfl | rfl | rfl | rfl <;> exact h

theorem moves_crediting (hmove : (st, .crediting) ∈ c.moves) : st = .confirmed ∧ c.confirms = true := by
  cases c <;> simp [Call.moves, Call.confirms] at hmove ⊢
  exact hmove

theorem moves_detects (hmove : (st, st') ∈ c.moves) (hc : c.detects = true) : st' = .detected := by
  cases c <;> simp [Call.moves, Call.detects] at hmove hc ⊢
  rcases hmove with h | h | h <;> exact h.2

end

theorem kept_step {g : SessionStep DepositSession DepositTransaction DepositEntry} {a : SessionAnswer} {db' : DB}
    (h : Kept c db₀ db (.before g)) (hG : SessionDoes tables (rulesOf c) g a db db' q) : Kept c db₀ db' q := by
  obtain ⟨halways', hknown', hholds', hbalanced', -⟩ :=
    session_step (hG.mono (rulesOf_le c)) h.always h.known h.holds h.balanced
  obtain ⟨-, -, -, hbalanced, hcredited, hhere, htaking, hsame, hnews⟩ := h
  cases hG with
  | refused => exact ⟨halways', hknown', hholds', hbalanced', hcredited, trivial, htaking, hsame, hnews⟩
  | loaded hq => exact ⟨halways', hknown', hholds', hbalanced', hcredited, at_loaded hq, htaking, hsame, hnews⟩
  | looked hq =>
    obtain ⟨rfl, -⟩ := hhere
    exact ⟨halways', hknown', hholds', hbalanced', hcredited, at_loaded hq, htaking, hsame, hnews⟩
  | tenant hq =>
    cases hhere
    exact ⟨halways', hknown', hholds', hbalanced', hcredited, at_loaded hq, htaking, hsame, hnews⟩
  | @recorded s t _ _ _ hq =>
    obtain ⟨rfl, hpay⟩ := hhere
    have hdetects : c.detects = true := by
      obtain ⟨tx, rfl, -⟩ := hpay
      rfl
    refine ⟨halways', hknown', hholds', hbalanced', hcredited.receive (htaking hdetects) _, ?_, htaking, ?_, hnews⟩
    · exact at_recorded hpay rfl hq
    · rw [hdetects]
      nofun
  | @written s es _ _ _ hv hq =>
    obtain ⟨hmove, hes⟩ := hhere
    have hreceived : (tables.update db.row s).receivedAmount = db.row.receivedAmount :=
      (hbalanced'.trans amounts.sum_write).trans hbalanced.symm
    refine ⟨halways', hknown', hholds', hbalanced', ?_, at_written hq, ?_, hsame, ?_⟩
    · rw [credits_append, hes, hreceived]
      exact hcredited.move hmove
    · intro hdetects
      show Open s.status
      rw [moves_detects hmove hdetects]
      decide
    · rw [credits_append, hes]
      split
      -- the credit: the session was CONFIRMED, and had none
      · rename_i hst
        rw [hst] at hmove
        obtain ⟨hconf, hconfirms⟩ := moves_crediting hmove
        rw [hconf] at hcredited
        have hnone : credits db.outbox = [] := hcredited
        have hold : credits db₀.outbox = [] := by
          rcases hnews with hnews | ⟨-, hnews⟩
          · exact hnews.symm.trans hnone
          · rw [hnone] at hnews
            simp at hnews
        have hsum : db.row.receivedAmount = ((recorded db).map (·.amount)).sum := hbalanced
        have hno : c.detects = false := by
          cases c <;> first | rfl | cases hconfirms
        rw [hsame hno] at hsum
        exact .inr ⟨hconfirms, by rw [hnone, hold, hsum]⟩
      · rw [append_nil]
        exact hnews

/-! ## Calls one after the other -/

/-- The amounts of a session between two calls. -/
structure Accounted (db : DB) : Prop where
  nonneg : 0 ≤ db.row.receivedAmount
  grid : numeric8 db.row.receivedAmount = db.row.receivedAmount
  balanced : db.row.receivedAmount = ((recorded db).map (·.amount)).sum
  credited : Credited db.row.receivedAmount (credits db.outbox) db.row.status

theorem call_kept (h : Accounted db) (c : SessionCall Call) (hopen : c.call.detects = true → Open db.row.status)
    (as : List SessionAnswer) : ∃ q, Kept c.call db ((program c).exec as db).1 q := by
  have hprog : Sessional tables (rulesOf c.call) db.row .loaded (program c) :=
    (program_sessional c).mono ((rulesOf c.call).and_le Settles)
  have hstep : ∀ g a db₁ db₂ q, Kept c.call db db₁ (.before g) →
      SessionDoes tables (rulesOf c.call) g a db₁ db₂ q → Kept c.call db db₂ q :=
    fun _ _ _ _ _ hK hG => kept_step hK hG
  refine exec_position hprog.1 hstep ?_ as
  rw [program_pos]
  exact ⟨⟨rfl, h.nonneg, h.grid⟩, trivial, (fun c hc => nomatch hc), h.balanced, h.credited, trivial, hopen,
    fun _ => rfl, .inl rfl⟩

theorem exec_found {tenantID : UUID} {tx : IncomingTransaction} {as : List SessionAnswer} (h : Finds db tx as) :
    ((handleTransactionDetected tenantID tx).exec as db).1 = db := by
  obtain ⟨⟨a₁, h₁, hok⟩, hfound⟩ := h
  match as, h₁ with
  | a₀ :: a₁' :: as, h₁ =>
    cases h₁
    dsimp only [handleTransactionDetected, getSession, Prog.exec]
    split
    · dsimp only [findTx, Prog.exec]
      rw [if_pos (by simp [hok, hfound]), exec_ret]
    · rw [exec_ret]

theorem exec_unconfirmed {tenantID : UUID} {txHash : String} {n : ℤ} (h : db.row.status ≠ .detected)
    (as : List SessionAnswer) : ((handleTransactionConfirmed tenantID txHash n).exec as db).1 = db := by
  rcases as with _ | ⟨a₀, as⟩
  · rfl
  dsimp only [handleTransactionConfirmed, getSession, Prog.exec]
  split
  · rw [inStatus, if_pos h, exec_ret]
  · rw [exec_ret]

variable {x : Round}

theorem Timely.open (hx : Timely db x) (hact : step db x ≠ db) (hc : x.call.call.detects = true) :
    Open db.row.status := by
  obtain ⟨⟨tenantID, c⟩, as, depth⟩ := x
  cases c with
  | handleTransactionDetected tx => exact hx.resolve_right fun hfinds => hact (exec_found hfinds)
  | _ => cases hc

theorem Timely.confirmed (hx : Timely db x) (hact : step db x ≠ db) (hc : x.call.call.confirms = true) :
    confirmedTxs x.depth db = recorded db := by
  obtain ⟨⟨tenantID, c⟩, as, depth⟩ := x
  cases c with
  | handleTransactionConfirmed txHash n =>
    have hst : db.row.status = .detected := by
      by_contra hne
      exact hact (exec_unconfirmed hne as)
    exact filter_eq_self.2 fun t ht => decide_eq_true (hx hst t ht)
  | _ => cases hc

/-- **One call** at its time keeps the amounts, and credits only confirmed transactions. -/
theorem call_accounted (h : Accounted db) (hx : Timely db x) :
    Accounted (step db x) ∧ (credits (step db x).outbox = credits db.outbox ∨
      credits (step db x).outbox = credits db.outbox ++ [((confirmedTxs x.depth db).map (·.amount)).sum]) := by
  by_cases hact : step db x = db
  · rw [hact]
    exact ⟨h, .inl rfl⟩
  obtain ⟨q, hkept⟩ := call_kept h x.call (hx.open hact) x.answers
  refine ⟨⟨hkept.always.2.1, hkept.always.2.2, hkept.balanced, hkept.credited⟩, hkept.news.imp_right ?_⟩
  rintro ⟨hc, hnews⟩
  rw [hx.confirmed hact hc]
  exact hnews

/-- A session for which nothing has been received. -/
structure Unpaid (db : DB) : Prop where
  status : db.row.status = .pendingPayment
  received : db.row.receivedAmount = 0
  recorded : recorded db = []
  credits : credits db.outbox = []

theorem Unpaid.accounted (h : Unpaid db) : Accounted db := by
  obtain ⟨hst, hr, hrec, hcred⟩ := h
  refine ⟨hr.ge, ?_, by rw [hr, hrec]; rfl, ?_⟩
  · rw [hr]
    decide +kernel
  · rw [hst]
    exact hcred

theorem accounted_run {xs : List Round} (h : Unpaid db) (hxs : Along step Timely db xs) :
    Accounted (run step db xs) := by
  have hstep : ∀ db x, Accounted db → Timely db x → Accounted (step db x) := fun _ _ hdb hx => (call_accounted hdb hx).1
  exact run_preserves hstep h.accounted hxs

/-- **Only confirmed payments are credited, and all of them**, in every run of timely calls: a
session that ends SETTLED or HELD has one credit, for all that was recorded, and a credit that a
call writes is for the transactions that are confirmed at that time. -/
theorem credits_confirmed {xs : List Round} (hnew : Unpaid db) (hxs : Along step Timely db xs) :
    let db' := run step db xs
    (db'.row.status = .settled ∨ db'.row.status = .held →
      credits db'.outbox = [((recorded db').map (·.amount)).sum]) ∧
    ∀ x, Timely db' x → credits (step db' x).outbox = credits db'.outbox ∨
      credits (step db' x).outbox = credits db'.outbox ++ [((confirmedTxs x.depth db').map (·.amount)).sum] := by
  intro db'
  have h : Accounted db' := accounted_run hnew hxs
  refine ⟨?_, fun x hx => (call_accounted h hx).2⟩
  rintro (hst | hst)
  all_goals
    have hcred := h.credited
    rw [hst, h.balanced] at hcred
    exact hcred

def unpaid : DB := ⟨sampleSession, [], []⟩

def round (c : Call) : Round := { call := ⟨1, c⟩, depth := fun t => if t.txHash = "a" then 19 else 0 }

def detectedA : Round := round (.handleTransactionDetected (sampleTx "a" 10))

def detectedB : Round := round (.handleTransactionDetected (sampleTx "b" 5))

def confirmedA : Round := round (.handleTransactionConfirmed "a" 19)

def creditedA : Round := round (.handleCreditResult { success := true })

theorem credits_confirmed_single :
    let db := run step unpaid [detectedA, confirmedA, creditedA]
    db.row.status = .held ∧ credits db.outbox = [((recorded db).map (·.amount)).sum] := by
  have hheld : (run step unpaid [detectedA, confirmedA, creditedA]).row.status = .held := by decide +kernel
  exact ⟨hheld, (credits_confirmed ⟨rfl, rfl, rfl, rfl⟩ (by decide +kernel)).1 (.inr hheld)⟩

/-- **Unconfirmed payments are credited, and others never**: one without confirmations together with
the first, and one after the confirmation not at all. -/
theorem credits_unconfirmed :
    let both := run step unpaid [detectedA, detectedB]
    let late := run step unpaid [detectedA, confirmedA, detectedB, creditedA]
    (credits (step both confirmedA).outbox = [15] ∧
      ((confirmedTxs confirmedA.depth both).map (·.amount)).sum = 10) ∧
    late.row.status = .held ∧ credits late.outbox = [10] ∧ ((recorded late).map (·.amount)).sum = 15 := by
  decide +kernel

end Settla.Deposit
