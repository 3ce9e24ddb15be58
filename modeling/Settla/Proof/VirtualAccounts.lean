import Settla.Core.BankPool
import Settla.Proof.BankDeposit

/-!
# Who has a virtual account

An account is free in the pool, held by a `CreateSession` that has not yet stored its session, or used by a
session that waits for a payment. A recycle intent sets it free by its number, whoever has it by then.
-/

namespace Settla.BankDeposit

open Settla.Core Lib Lib.Threads List

abbrev BankPos := Pos BankStep BankResult

/-! ## What the calls do -/

/-- The account stays, and the status becomes that of the session it writes, which does not wait for
a payment. -/
structure Writes (g : SessionStep BankDepositSession BankDepositTransaction BankDepositEntry) (_ : SessionAnswer)
    (db db' : DB) (q : Pos (SessionStep BankDepositSession BankDepositTransaction BankDepositEntry) SessionResult) :
    Prop where
  account : db'.row.accountNumber = db.row.accountNumber
  status : db'.row.status = db.row.status ∨ ∃ s es, g = .transition s es ∧ db'.row.status = s.status
  next : ∀ s es, q = .before (.transition s es) → s.status ≠ .pendingPayment

variable {pool : AccountPool} {db : DB} {va : VirtualAccountPool}

theorem program_writes (c : SessionCall Call) : (program c).Follows Writes := by
  refine (program_follows c).mono fun g a db db' q hG => ?_
  have hnext : ∀ {s h}, Carries rules s h q → ∀ s' es, q = .before (.transition s' es) → s'.status ≠ .pendingPayment := by
    rintro s h hq s' es rfl heq
    have hvalid := hq.1
    rw [heq] at hvalid
    revert hvalid
    cases s.status <;> decide
  cases hG with
  | refused => exact ⟨rfl, .inl rfl, fun s es hq => by cases hq⟩
  | loaded hq | looked hq | tenant hq | recorded hq => exact ⟨rfl, .inl rfl, hnext hq⟩
  | @written s es _ _ _ _ hq => exact ⟨rfl, .inr ⟨s, es, rfl, rfl⟩, hnext hq⟩

/-- A call that is not about to store or write a session. -/
def Idle : BankPos → Prop
  | .returned _ | .before .dispenseVirtualAccount | .before .getSessionByIdempotencyKey => True
  | _ => False

/-- A store call that may leave the store as it is. -/
def Optional : BankStep → Prop
  | .persist _ => False
  | _ => True

inductive BankDoes : BankStep → BankAnswer → BankStore → BankStore → BankPos → Prop
  | idle {g a st q} : Optional g → Idle q → BankDoes g a st st q
  | dispensed {a st va s} : va ∈ st.pool.accounts → va.available → va.accountType = .temporary →
      s.accountNumber = va.accountNumber → s.status = .pendingPayment →
      BankDoes .dispenseVirtualAccount a st { st with pool := st.pool.mark va.accountNumber false } (.before (.persist s))
  /-- an account is taken, but `CreateSession` sees an error -/
  | leaked {a st va r} : va ∈ st.pool.accounts → va.available → a.reply = .lost →
      BankDoes .dispenseVirtualAccount a st { st with pool := st.pool.mark va.accountNumber false } (.returned r)
  | stored {s a st r} :
      BankDoes (.persist s) a st { st with rows := st.rows ++ [s], outbox := st.outbox ++ createdEntries s } (.returned r)
  | refused {s a st r} : a.reply = .error → BankDoes (.persist s) a st st (.returned r)
  | recycled {n a st r} : a.reply.applied →
      BankDoes (.recycleVirtualAccount n) a st { st with pool := st.pool.mark n true } (.returned r)
  | onRow {i g a st st' q} : Focused (onRow i) Writes (.onRow i g) a st st' q → BankDoes (.onRow i g) a st st' q

theorem persist_follows (s : BankDepositSession) : (persist s).Follows BankDoes := by
  intro a st
  dsimp only
  cases hreply : a.reply with
  | ok | lost => exact ⟨.stored, trivial⟩
  | error => exact ⟨.refused hreply, trivial⟩

theorem dispense_follows (tenantID : UUID) (config : TenantBankConfig) (req : CreateSessionRequest) :
    (dispense tenantID config req).Follows BankDoes := by
  intro a st
  dsimp only
  cases hva : st.pool.next tenantID req.currency a.locked with
  | none =>
    dsimp only
    split <;> exact ⟨.idle trivial trivial, trivial⟩
  | some va =>
    have hmem := List.mem_of_find?_eq_some hva
    have hnext := List.find?_some hva
    simp only [decide_eq_true_eq] at hnext
    obtain ⟨-, -, havailable, htype, -⟩ := hnext
    cases hreply : a.reply with
    | ok => exact ⟨.dispensed hmem havailable htype rfl rfl, persist_follows _⟩
    | error => exact ⟨.idle trivial trivial, trivial⟩
    | lost => exact ⟨.leaked hmem havailable hreply, trivial⟩

theorem createSession_follows (tenantID : UUID) (req : CreateSessionRequest) :
    (createSession tenantID req).Follows BankDoes := by
  have hquiet : ∀ {a st r}, BankDoes .loadTenant a st st (.returned r) := .idle trivial trivial
  have hfound : ∀ {a st r}, BankDoes .getSessionByIdempotencyKey a st st (.returned r) := .idle trivial trivial
  intro a st
  dsimp only
  iterate 5 (split; · exact ⟨hquiet, trivial⟩)
  split
  · exact ⟨.idle trivial trivial, dispense_follows _ _ _⟩
  refine ⟨.idle trivial trivial, fun a st => ?_⟩
  dsimp only
  split
  · split
    · exact ⟨hfound, trivial⟩
    · exact ⟨.idle trivial trivial, dispense_follows _ _ _⟩
  · exact ⟨.idle trivial trivial, dispense_follows _ _ _⟩

/-- **A call does only what `BankDoes` allows.** -/
theorem bankProgram_follows (c : BankCall) : (bankProgram c).Follows BankDoes := by
  cases c with
  | createSession tenantID req => exact createSession_follows tenantID req
  | onSession i c =>
    refine ((program_writes c).focus (onRow i)).mono fun g a st st' q hG => ?_
    cases hG with
    | missing => exact .onRow .missing
    | does hget hG => exact .onRow (.does hget hG)
  | recycle p =>
    intro a st
    dsimp only
    cases hreply : a.reply with
    | ok | lost => exact ⟨.recycled (by rw [hreply]; rfl), trivial⟩
    | error => exact ⟨.idle trivial trivial, trivial⟩

/-! ## The places of an account -/

def pending (st : BankStore) (n : String) : ℕ :=
  st.rows.countP fun s => s.accountNumber = n ∧ s.status = .pendingPayment

variable (n : String)

/-- The call has taken the account and is about to store its session. -/
def holds : BankPos → Bool
  | .before (.persist s) => s.accountNumber = n
  | _ => false

@[simp] theorem holds_persist (s : BankDepositSession) :
    holds n (.before (.persist s)) = decide (s.accountNumber = n) := rfl

@[simp] theorem holds_dispense : holds n (.before .dispenseVirtualAccount) = false := rfl

@[simp] theorem holds_recycle (n n' : String) : holds n (.before (.recycleVirtualAccount n')) = false := rfl

@[simp] theorem holds_onRow (i : ℕ)
    (step : SessionStep BankDepositSession BankDepositTransaction BankDepositEntry) :
    holds n (.before (.onRow i step)) = false := rfl

@[simp] theorem holds_returned (r : BankResult) : holds n (.returned r) = false := rfl

def held (ps : List BankPos) (n : String) : ℕ := ps.countP (holds n)

def free (pool : AccountPool) (n : String) : ℕ :=
  pool.accounts.countP fun va => va.accountNumber = n ∧ va.available

theorem free_take (hmem : va ∈ pool.accounts) (havailable : va.available) (n : String) :
    free (pool.mark va.accountNumber false) n + (if va.accountNumber = n then 1 else 0) ≤ free pool n := by
  unfold free AccountPool.mark
  rw [countP_map]
  by_cases hn : va.accountNumber = n
  · rw [if_pos hn]
    have hnone : pool.accounts.countP ((fun va => decide (va.accountNumber = n ∧ va.available)) ∘
        (VirtualAccountPool.mark · va.accountNumber false)) = 0 := by
      rw [countP_eq_zero]
      intro va' _
      by_cases hva : va'.accountNumber = va.accountNumber
      · simp [VirtualAccountPool.mark, hva]
      · simp [VirtualAccountPool.mark, hva, ← hn]
    have hone : 0 < pool.accounts.countP fun va => va.accountNumber = n ∧ va.available :=
      countP_pos_iff.2 ⟨va, hmem, by simp [hn, havailable]⟩
    omega
  · rw [if_neg hn, Nat.add_zero]
    refine countP_mono_left fun va' _ h => ?_
    by_cases hva : va'.accountNumber = va.accountNumber
    · simp [VirtualAccountPool.mark, hva] at h
    · simpa [VirtualAccountPool.mark, hva] using h

theorem free_le_one (pool : AccountPool) (n : String) : free pool n ≤ 1 := by
  calc free pool n ≤ pool.accounts.countP fun va => va.accountNumber = n := by
        refine countP_mono_left fun va _ h => ?_
        simp only [decide_eq_true_eq] at h ⊢
        exact h.1
    _ = (pool.accounts.map (·.accountNumber)).count n := by
        rw [List.count, countP_map]
        rfl
    _ ≤ 1 := nodup_iff_count_le_one.1 pool.unique n

theorem free_recycle (pool : AccountPool) (n' n : String) :
    free (pool.mark n' true) n ≤ if n' = n then 1 else free pool n := by
  by_cases hn : n' = n
  · rw [if_pos hn]
    exact free_le_one _ n
  · rw [if_neg hn, free, AccountPool.mark, countP_map]
    refine countP_mono_left fun va _ h => ?_
    by_cases hva : va.accountNumber = n'
    · simp [VirtualAccountPool.mark, hva, hn] at h
    · simpa [VirtualAccountPool.mark, hva] using h

theorem countP_set_le {α : Type} {p : α → Bool} {xs : List α} {i : ℕ} {x y : α} (hi : xs[i]? = some x)
    (h : p y → p x) : (xs.set i y).countP p ≤ xs.countP p := by
  obtain ⟨hperm, hset⟩ := perm_rest hi
  rw [hperm.countP_eq, (hset y).countP_eq, countP_cons, countP_cons]
  by_cases hy : p y
  · rw [if_pos hy, if_pos (h hy)]
  · rw [if_neg hy]
    omega

section Steps

variable {st st' : BankStore} {ps : List BankPos} {i : ℕ} {g : BankStep} {a : BankAnswer} {q : BankPos}

theorem held_set (hi : ps[i]? = some (.before g)) (q : BankPos) (n : String) :
    ∃ r, held ps n = r + (if holds n (.before g) then 1 else 0) ∧
      held (ps.set i q) n = r + (if holds n q then 1 else 0) := by
  obtain ⟨hperm, hset⟩ := perm_rest hi
  refine ⟨held (ps.eraseIdx i) n, ?_, ?_⟩
  · unfold held
    rw [hperm.countP_eq, countP_cons]
  · unfold held
    rw [(hset q).countP_eq, countP_cons]

theorem Idle.not_holds (hq : Idle q) (n : String) : holds n q = false := by
  unfold holds
  split
  · exact hq.elim
  · rfl

theorem Optional.not_holds (hg : Optional g) (n : String) : holds n (.before g) = false := by
  unfold holds
  split
  · rename_i h
    cases h
    exact hg.elim
  · rfl

theorem onRow_not_holds (i : ℕ) (q : Position) (n : String) : holds n ((onRow i).pos q) = false := by
  cases q <;> rfl

/-- A method that is about to write a session does not write one that waits. -/
def Written : BankPos → Prop
  | .before (.onRow _ (.transition s _)) => s.status ≠ .pendingPayment
  | .before (.persist s) => s.status = .pendingPayment
  | _ => True

theorem Idle.written (hq : Idle q) : Written q := by
  unfold Written
  split
  · exact hq.elim
  · exact hq.elim
  · trivial

theorem onRow_written {q : Position} (h : ∀ s es, q = .before (.transition s es) → s.status ≠ .pendingPayment) :
    Written ((onRow i).pos q) := by
  cases q with
  | returned r => trivial
  | before g =>
    cases g with
    | transition s es => exact h s es rfl
    | getSession | findTx | recordTx | getTenant => trivial

theorem BankDoes.written (h : BankDoes g a st st' q) : Written q := by
  cases h with
  | idle _ hq => exact hq.written
  | dispensed _ _ _ _ hs => exact hs
  | leaked | stored | refused | recycled => trivial
  | onRow h =>
    cases h with
    | missing => trivial
    | does _ h => exact onRow_written h.next

theorem onRow_get (h : (onRow i).get st = some db) : st.rows[i]? = some db.row := by
  obtain ⟨row, hrow, rfl⟩ := Option.map_eq_some_iff.1 h
  exact hrow

theorem pending_put {db' : DB}
    {step : SessionStep BankDepositSession BankDepositTransaction BankDepositEntry} {b : SessionAnswer}
    {p : Position} (hget : (onRow i).get st = some db) (hwrites : Writes step b db db' p)
    (hknown : Written (.before (.onRow i step))) (n : String) : pending ((onRow i).put db' st) n ≤ pending st n := by
  refine countP_set_le (onRow_get hget) fun h => ?_
  simp only [decide_eq_true_eq] at h ⊢
  rw [hwrites.account] at h
  rcases hwrites.status with hsame | ⟨s, es, rfl, hs⟩
  · exact hsame ▸ h
  · exact absurd (hs.symm.trans h.2) hknown

theorem pending_store (st : BankStore) (s : BankDepositSession) (n : String) :
    pending { st with rows := st.rows ++ [s], outbox := st.outbox ++ createdEntries s } n ≤
      pending st n + if s.accountNumber = n then 1 else 0 := by
  unfold pending
  rw [countP_append, countP_singleton]
  refine Nat.add_le_add_left ?_ _
  by_cases hs : s.accountNumber = n
  · rw [if_pos hs]
    split <;> omega
  · rw [if_neg hs, if_neg (by simp [hs])]

theorem starts (c : BankCall) : Written (bankProgram c).pos ∧ ∀ n, holds n (bankProgram c).pos = false := by
  cases c with
  | createSession tenantID req | recycle p => exact ⟨trivial, fun n => rfl⟩
  | onSession i c =>
    have hpos : (bankProgram (.onSession i c)).pos = .before (.onRow i .getSession) := by
      show ((program c).focus (onRow i)).pos = _
      rw [focus_pos, program_pos]
      rfl
    rw [hpos]
    exact ⟨trivial, fun n => rfl⟩

/-- A recycle intent is executed only while no session waits for a payment on the account, and no
`CreateSession` holds it. -/
def recycledAlone (st : BankStore) (ps : List BankPos) : Action BankCall BankAnswer → Prop
  | .step i a => ∀ g ∈ ps[i]?.bind Pos.label?, match g with
    | .recycleVirtualAccount n => a.reply.applied → pending st n = 0 ∧ held ps n = 0
    | _ => True
  | _ => True

instance (st : BankStore) (ps : List BankPos) (a : Action BankCall BankAnswer) : Decidable (recycledAlone st ps a) :=
  match a with
  | .start _ | .drop _ => .isTrue trivial
  | .step i a => @Option.decidableForallMem _ _ (fun g => match g with
    | .recycleVirtualAccount n => inferInstanceAs (Decidable (a.reply.applied → pending st n = 0 ∧ held ps n = 0))
    | .onRow _ _ | .loadTenant | .getSessionByIdempotencyKey | .dispenseVirtualAccount | .persist _ => .isTrue trivial)
    (ps[i]?.bind Pos.label?)

structure OnePlace (st : BankStore) (ps : List BankPos) : Prop where
  place : ∀ n, pending st n + held ps n + free st.pool n ≤ 1
  written : ∀ q ∈ ps, Written q

/-- **A step moves an account from one place to the next.** -/
theorem place_step (hi : ps[i]? = some (.before g)) (hG : BankDoes g a st st' q)
    (hok : recycledAlone st ps (.step i a)) (hJ : OnePlace st ps) (n : String) :
    pending st' n + held (ps.set i q) n + free st'.pool n ≤ 1 := by
  have hplace := hJ.place n
  obtain ⟨r, hbefore, hafter⟩ := held_set hi q n
  cases hG with
  | idle hg hq =>
    rw [hg.not_holds] at hbefore
    rw [hq.not_holds] at hafter
    omega
  | @dispensed _ _ va s hmem havailable _ hs _ =>
    have htake : free (st.pool.mark va.accountNumber false) n + _ ≤ _ := free_take hmem havailable n
    simp only [holds_dispense, holds_persist, hs, decide_eq_true_eq, Bool.false_eq_true, if_false] at hbefore hafter
    dsimp only [pending] at hplace ⊢
    omega
  | @leaked _ _ va _ hmem havailable _ =>
    have htake : free (st.pool.mark va.accountNumber false) n + _ ≤ _ := free_take hmem havailable n
    simp only [holds_dispense, holds_returned, Bool.false_eq_true, if_false] at hbefore hafter
    dsimp only [pending] at hplace ⊢
    omega
  | @stored s _ _ _ =>
    have hrows := pending_store st s n
    simp only [holds_persist, holds_returned, decide_eq_true_eq, Bool.false_eq_true, if_false] at hbefore hafter
    dsimp only
    omega
  | refused _ =>
    simp only [holds_persist, holds_returned, decide_eq_true_eq, Bool.false_eq_true, if_false] at hbefore hafter
    omega
  | @recycled n' _ _ _ happlied =>
    have hfree := free_recycle st.pool n' n
    simp only [holds_recycle, holds_returned, Bool.false_eq_true, if_false] at hbefore hafter
    dsimp only [pending] at hplace ⊢
    by_cases hn : n' = n
    · obtain ⟨hpending, hheld⟩ := hok (.recycleVirtualAccount n') (by rw [hi]; rfl) happlied
      rw [hn] at hpending hheld
      rw [if_pos hn] at hfree
      unfold pending at hpending
      omega
    · rw [if_neg hn] at hfree
      omega
  | @onRow i' step _ _ _ _ hG =>
    rw [holds_onRow] at hbefore
    cases hG with
    | missing =>
      rw [holds_returned] at hafter
      omega
    | @does _ _ _ db db' q hget hwrites =>
      rw [onRow_not_holds] at hafter
      have hpending := pending_put hget hwrites (hJ.written _ (List.mem_of_getElem? hi)) n
      have hpool : ((onRow i').put db' st).pool = st.pool := rfl
      rw [hpool]
      omega

/-- **Each account stays in one place.** -/
theorem one_place : Keeps BankDoes bankProgram recycledAlone OnePlace := by
  intro st ps a st' ps' hJ hok heff
  cases heff with
  | start c =>
    obtain ⟨hwritten, hholds⟩ := starts c
    refine ⟨fun n => ?_, forall_mem_snoc hJ.written hwritten⟩
    have hplace := hJ.place n
    simpa [held, countP_append, hholds] using hplace
  | drop i =>
    refine ⟨fun n => ?_, fun q hq => hJ.written q (mem_of_mem_eraseIdx hq)⟩
    have hless : held (ps.eraseIdx i) n ≤ held ps n := (eraseIdx_sublist ps i).countP_le
    have hplace := hJ.place n
    omega
  | idle i a => exact hJ
  | step i a g st' q hi hG =>
    exact ⟨place_step hi hG hok hJ, forall_mem_set hJ.written hG.written⟩

/-! ## The pool and the sessions -/

/-- A payment can still be received or processed: the state machine leads on. -/
def live (status : BankDepositSessionStatus) : Bool := validBankDepositTransitions status ≠ []

def used (st : BankStore) (n : String) : ℕ := st.rows.countP fun s => s.accountNumber = n

/-- An account is not lost on its way to a session, a session does not come to its end, and an
account is recycled only when no session that can go on uses it and no `CreateSession` holds it. -/
def Undisturbed (st : BankStore) (ps : List BankPos) (a : BankAnswer) : BankStep → Prop
  | .dispenseVirtualAccount => a.reply ≠ .lost
  | .persist _ => a.reply.applied
  | .onRow _ (.transition s _) => live s.status
  | .recycleVirtualAccount n =>
    a.reply.applied → (∀ s ∈ st.rows, s.accountNumber = n → ¬ live s.status) ∧ held ps n = 0
  | _ => True

/-- The same for an action; besides, no call crashes while it holds an account. -/
def undisturbed (st : BankStore) (ps : List BankPos) : Action BankCall BankAnswer → Prop
  | .start _ => True
  | .drop i => ∀ q ∈ ps[i]?, ∀ va ∈ st.pool.accounts, ¬ holds va.accountNumber q
  | .step i a => ∀ g ∈ ps[i]?.bind Pos.label?, Undisturbed st ps a g

instance (st : BankStore) (ps : List BankPos) (a : BankAnswer) (g : BankStep) : Decidable (Undisturbed st ps a g) := by
  unfold Undisturbed
  split <;> infer_instance

instance (st : BankStore) (ps : List BankPos) (a : Action BankCall BankAnswer) : Decidable (undisturbed st ps a) := by
  cases a <;> unfold undisturbed <;> infer_instance

/-- The pool agrees with the sessions, all of which can go on. -/
structure Agree (st : BankStore) (ps : List BankPos) : Prop where
  live : ∀ s ∈ st.rows, live s.status
  pool : ∀ va ∈ st.pool.accounts, va.accountType = .temporary →
    (va.available ↔ used st va.accountNumber + held ps va.accountNumber = 0)
  written : ∀ q ∈ ps, Written q

theorem mem_mark {n : String} {available : Bool} (h : va ∈ (pool.mark n available).accounts) :
    va.accountNumber = n ∧ va.available = available ∨ va.accountNumber ≠ n ∧ va ∈ pool.accounts := by
  obtain ⟨va', hmem, rfl⟩ := mem_map.1 h
  unfold VirtualAccountPool.mark
  by_cases hn : va'.accountNumber = n
  · rw [if_pos hn]
    exact .inl ⟨hn, rfl⟩
  · rw [if_neg hn]
    exact .inr ⟨hn, hmem⟩

theorem used_put {db' : DB} (hget : (onRow i).get st = some db)
    (haccount : db'.row.accountNumber = db.row.accountNumber) (n : String) :
    used ((onRow i).put db' st) n = used st n := by
  obtain ⟨hperm, hset⟩ := perm_rest (onRow_get hget)
  show (st.rows.set i db'.row).countP _ = st.rows.countP _
  rw [hperm.countP_eq, (hset db'.row).countP_eq, countP_cons, countP_cons, haccount]

/-- **An undisturbed step keeps the pool and the sessions in agreement.** -/
theorem agree_step (hi : ps[i]? = some (.before g)) (hG : BankDoes g a st st' q) (hok : Undisturbed st ps a g)
    (hJ : Agree st ps) :
    (∀ s ∈ st'.rows, live s.status) ∧ ∀ va ∈ st'.pool.accounts, va.accountType = .temporary →
      (va.available ↔ used st' va.accountNumber + held (ps.set i q) va.accountNumber = 0) := by
  have hheld := held_set hi q
  -- what does not touch the pool moves accounts at most between calls and sessions
  have hkept : (∀ n, used st' n + held (ps.set i q) n = used st n + held ps n) → st'.pool = st.pool →
      ∀ va ∈ st'.pool.accounts, va.accountType = .temporary →
        (va.available ↔ used st' va.accountNumber + held (ps.set i q) va.accountNumber = 0) := by
    intro hsame hpool va hva htype
    rw [hsame]
    exact hJ.pool va (hpool ▸ hva) htype
  cases hG with
  | idle hg hq =>
    refine ⟨hJ.live, hkept (fun n => ?_) rfl⟩
    obtain ⟨r, hbefore, hafter⟩ := hheld n
    rw [hg.not_holds] at hbefore
    rw [hq.not_holds] at hafter
    omega
  | @dispensed _ _ va₀ s hmem havailable htype hs _ =>
    refine ⟨hJ.live, fun va hva hva' => ?_⟩
    obtain ⟨r, hbefore, hafter⟩ := hheld va.accountNumber
    simp only [holds_dispense, holds_persist, hs, decide_eq_true_eq, Bool.false_eq_true, if_false] at hbefore hafter
    rcases mem_mark hva with ⟨hn, hmark⟩ | ⟨hn, hva⟩
    · -- the account is held now
      rw [if_pos hn.symm] at hafter
      rw [hmark]
      exact ⟨nofun, fun h => by omega⟩
    · rw [if_neg fun h => hn h.symm] at hafter
      have hsame := hJ.pool va hva hva'
      dsimp only [used] at hsame ⊢
      rw [hafter, ← hbefore]
      exact hsame
  | leaked _ _ hlost => exact absurd hlost hok
  | @stored s _ _ _ =>
    have hs : s.status = .pendingPayment := hJ.written _ (List.mem_of_getElem? hi)
    refine ⟨forall_mem_snoc hJ.live ?_, hkept (fun n => ?_) rfl⟩
    · rw [hs]
      decide
    · obtain ⟨r, hbefore, hafter⟩ := hheld n
      dsimp only [used]
      rw [countP_append, countP_singleton]
      simp only [holds_persist, holds_returned, decide_eq_true_eq, Bool.false_eq_true, if_false] at hbefore hafter ⊢
      omega
  | refused herror =>
    have happlied : a.reply.applied = true := hok
    rw [herror] at happlied
    cases happlied
  | @recycled n' _ _ _ happlied =>
    obtain ⟨hended, hnone⟩ := hok happlied
    refine ⟨hJ.live, fun va hva hva' => ?_⟩
    obtain ⟨r, hbefore, hafter⟩ := hheld va.accountNumber
    simp only [holds_recycle, holds_returned, Bool.false_eq_true, if_false] at hbefore hafter
    rcases mem_mark hva with ⟨hn, hmark⟩ | ⟨hn, hva⟩
    · -- all sessions can go on, so there is none on this account
      have hunused : used st va.accountNumber = 0 := by
        rw [used, countP_eq_zero]
        intro s hs hsn
        rw [decide_eq_true_eq] at hsn
        exact hended s hs (hsn.trans hn) (hJ.live s hs)
      have hunheld : held ps va.accountNumber = 0 := by rw [hn]; exact hnone
      unfold used at hunused
      refine ⟨fun _ => ?_, fun _ => hmark⟩
      dsimp only [used]
      omega
    · have hsame := hJ.pool va hva hva'
      dsimp only [used] at hsame ⊢
      rw [hafter, ← hbefore]
      exact hsame
  | @onRow i' step _ _ _ _ hG =>
    cases hG with
    | missing =>
      refine ⟨hJ.live, hkept (fun n => ?_) rfl⟩
      obtain ⟨r, hbefore, hafter⟩ := hheld n
      simp only [holds_onRow, holds_returned, Bool.false_eq_true, if_false] at hbefore hafter
      omega
    | @does _ _ _ db db' q hget hwrites =>
      refine ⟨forall_mem_set hJ.live ?_, hkept (fun n => ?_) rfl⟩
      · rcases hwrites.status with hsame | ⟨s, es, rfl, hs⟩
        · rw [hsame]
          exact hJ.live _ (List.mem_of_getElem? (onRow_get hget))
        · rw [hs]
          exact hok
      · obtain ⟨r, hbefore, hafter⟩ := hheld n
        simp only [holds_onRow, onRow_not_holds, Bool.false_eq_true, if_false] at hbefore hafter
        have hused := used_put hget hwrites.account n
        omega

/-- **The pool and the sessions stay in agreement.** -/
theorem stays_agreed : Keeps BankDoes bankProgram undisturbed Agree := by
  intro st ps a st' ps' hJ hok heff
  cases heff with
  | start c =>
    obtain ⟨hwritten, hholds⟩ := starts c
    refine ⟨hJ.live, fun va hva htype => ?_, forall_mem_snoc hJ.written hwritten⟩
    have hsame := hJ.pool va hva htype
    simpa [held, countP_append, hholds] using hsame
  | drop i =>
    refine ⟨hJ.live, fun va hva htype => ?_, fun q hq => hJ.written q (mem_of_mem_eraseIdx hq)⟩
    have hsame := hJ.pool va hva htype
    have hheld : held (ps.eraseIdx i) va.accountNumber = held ps va.accountNumber := by
      cases hi : ps[i]? with
      | none => rw [eraseIdx_of_length_le (List.getElem?_eq_none_iff.1 hi)]
      | some q =>
        have hnot := hok q hi va hva
        rw [held, held, (perm_rest hi).1.countP_eq, countP_cons, if_neg hnot, Nat.add_zero]
    rw [hheld]
    exact hsame
  | idle i a => exact hJ
  | step i a g st' q hi hG =>
    obtain ⟨hlive, hpool⟩ := agree_step hi hG (hok g (by rw [hi]; rfl)) hJ
    exact ⟨hlive, hpool, forall_mem_set hJ.written hG.written⟩

end Steps

/-- **Virtual accounts are exclusive.** While recycle intents are executed only when nobody has the
account, at most one session waits for a payment on an account, and none when it is free; and while
the steps are undisturbed, a temporary account that no `CreateSession` holds is free exactly when no
session on it can go on. -/
theorem account_exclusive (st : BankStore) (as : List (Action BankCall BankAnswer)) (hrows : st.rows = [])
    (hfree : ∀ va ∈ st.pool.accounts, va.accountType = .temporary → va.available) :
    (Meets bankProgram recycledAlone (System.init st) as →
      let s := run (System.act bankProgram) (System.init st) as
      ∀ n, pending s.state n ≤ 1 ∧ (0 < free s.state.pool n → pending s.state n = 0)) ∧
    (Meets bankProgram undisturbed (System.init st) as →
      let s := run (System.act bankProgram) (System.init st) as
      ∀ va ∈ s.state.pool.accounts, va.accountType = .temporary → held s.positions va.accountNumber = 0 →
        (va.available ↔ ∀ row ∈ s.state.rows, row.accountNumber = va.accountNumber → ¬ live row.status)) := by
  refine ⟨fun has => ?_, fun has => ?_⟩
  · have hinit : OnePlace st [] := by
      refine ⟨fun n => ?_, fun q hq => by cases hq⟩
      have hpending : pending st n = 0 := by rw [pending, hrows]; rfl
      have hone := free_le_one st.pool n
      have hheld : held [] n = 0 := rfl
      omega
    obtain ⟨-, hJ⟩ := run_keeps bankProgram_follows one_place (init_following st) hinit has
    intro s n
    have hplace : pending s.state n + held s.positions n + free s.state.pool n ≤ 1 := hJ.place n
    exact ⟨by omega, fun h => by omega⟩
  · have hinit : Agree st [] := by
      refine ⟨by simp [hrows], fun va hva htype => ?_, fun q hq => by cases hq⟩
      have hunused : used st va.accountNumber = 0 := by rw [used, hrows]; rfl
      exact ⟨fun _ => hunused, fun _ => hfree va hva htype⟩
    obtain ⟨-, hJ⟩ := run_keeps bankProgram_follows stays_agreed (init_following st) hinit has
    intro s va hva htype hheld
    rw [hJ.pool va hva htype, hheld, Nat.add_zero, used, countP_eq_zero]
    refine ⟨fun hunused row hrow hn => absurd (decide_eq_true hn) (hunused row hrow), fun hended row hrow hn => ?_⟩
    exact hended row hrow (of_decide_eq_true hn) (hJ.live row hrow)

def samplePool : BankStore :=
  ⟨⟨[⟨1, "partner", "account", "GBP", .temporary, true⟩], List.nodup_singleton _⟩, [], [], []⟩

def sampleRequest : BankCall := .createSession 1 ⟨"", "GBP", 10, 0, 0, none, none⟩

def sampleRecycle : BankCall := .recycle ⟨"account", "partner"⟩

def sampleCall (i : ℕ) (c : Call) : BankCall := .onSession i ⟨1, c⟩

theorem account_exclusive_reused :
    (let as := inOrder [sampleRequest, sampleCall 0 .expireSession, sampleRecycle, sampleRequest] 3 {}
      let s := run (System.act bankProgram) (System.init samplePool) as
      s.state.rows.map (·.status) = [.expired, .pendingPayment] ∧ pending s.state "account" ≤ 1) ∧
    (let as := inOrder [sampleRequest] 3 {}
      let s := run (System.act bankProgram) (System.init samplePool) as
      s.state.pool.accounts.map (·.available) = [false] ∧ s.state.rows.map (·.status) = [.pendingPayment] ∧
        ∀ va ∈ s.state.pool.accounts, va.accountType = .temporary → held s.positions va.accountNumber = 0 →
          (va.available ↔ ∀ row ∈ s.state.rows, row.accountNumber = va.accountNumber → ¬ live row.status)) := by
  refine ⟨⟨by decide +kernel, ?_⟩, by decide +kernel, by decide +kernel, ?_⟩
  · exact ((account_exclusive samplePool _ rfl (by decide)).1 (by decide +kernel) "account").1
  · exact (account_exclusive samplePool _ rfl (by decide)).2 (by decide +kernel)

/-- **An account can be shared, and it can be lost.** The recycle intent of an expired session is
delivered again, when the account has been given to another one: it is free while that session waits
for a payment, and goes to a third. And a session that is paid ends HELD: its account stays taken. -/
theorem account_shared :
    (let calls := [sampleRequest, sampleCall 0 .expireSession, sampleRecycle, sampleRequest, sampleRecycle]
      let s := run (System.act bankProgram) (System.init samplePool) (inOrder calls 3 {})
      let s' := run (System.act bankProgram) (System.init samplePool) (inOrder (calls ++ [sampleRequest]) 3 {})
      recycles s'.state.outbox = ["account"] ∧
        s.state.pool.accounts.map (·.available) = [true] ∧ pending s.state "account" = 1 ∧
        s'.state.rows.map (·.status) = [.expired, .pendingPayment, .pendingPayment] ∧ pending s'.state "account" = 2) ∧
    (let calls := [sampleRequest, sampleCall 0 (.handleBankCreditReceived (sampleCredit "a" 10)),
        sampleCall 0 (.handleCreditResult { success := true })]
      let s := run (System.act bankProgram) (System.init samplePool) (inOrder calls 9 {})
      s.positions.all Pos.ended ∧ s.state.rows.map (·.status) = [.held] ∧ recycles s.state.outbox = [] ∧
        s.state.pool.accounts.map (·.available) = [false]) := by
  refine ⟨?_, ?_⟩ <;> decide +kernel

end Settla.BankDeposit
