import Settla.Node.BankDepositWorker
import Settla.Proof.BankDeposit

/-!
# Each bank credit counts once

Three things get past the lookup of the bank reference: a failed lookup is taken for one that finds
nothing; two deliveries at the same time both find nothing; and the engine's own event comes back as a
credit without a reference, which no row has.
-/

namespace Settla.BankDeposit

open Settla.Core Settla.Node Lib Lib.Threads List

/-- A credit the bank has sent, or the one that is made of an event of the engine. -/
def Comes (credits : List InboundPayload) (credit : IncomingBankCredit) : Prop :=
  credit.bankReference = "" ∨ ∃ p ∈ credits, ∃ amount, p.amount = some amount ∧ credit = p.credit amount

section Handlers

variable {A : IncomingBankCredit → Prop} {s₀ : BankDepositSession} {h : Held BankDepositTransaction}

theorem inbound_sessional {index : Option VirtualAccountIndex} {p : InboundPayload}
    (hp : ∀ amount, p.amount = some amount → A (p.credit amount)) :
    Sessional tables (rulesFor A) s₀ h (handleInboundBankCredit index p) := by
  unfold handleInboundBankCredit
  split
  · exact sessional_ret _
  split
  · rename_i index amount hamount
    refine ⟨fun a db => ?_, trivial⟩
    dsimp only
    split
    · have hcredit : Sessional tables (rulesFor A) db.row .loaded
          (handleBankCreditReceived db.row.tenantID (p.credit amount)) :=
        creditReceived_sessional _ (hp amount hamount)
      exact ⟨.loaded hcredit.2, hcredit.1⟩
    split <;> exact ⟨.refused, trivial⟩
  · exact sessional_ret _

theorem event_sessional {treasuryErr : Option String} {e : BankDepositEntry} (hown : ∀ p, A (ownCredit p)) :
    Sessional tables (rulesFor A) s₀ h (handleBankDepositEvent treasuryErr e) := by
  unfold handleBankDepositEvent
  split
  · exact creditReceived_sessional _ (hown _)
  · exact creditResult_sessional _ _
  · exact settlementResult_sessional _ _
  · exact sessional_ret _

theorem handler_sessional {credits : List InboundPayload} (m : BankMessage credits) :
    Sessional tables (rulesFor (Comes credits)) s₀ h (bankDepositHandler m) := by
  cases m with
  | inbound index p => exact inbound_sessional fun amount hamount => .inr ⟨p, p.2, amount, hamount, rfl⟩
  | outbox e treasuryErr => exact event_sessional fun _ => .inl rfl
  | expire tenantID => exact expireSession_sessional tenantID
  | cancel tenantID => exact cancelSession_sessional tenantID

theorem records_nothing (s : BankDepositSession) (t : BankDepositTransaction) :
    ¬ (rulesFor fun _ => False).Pays s t := by
  rintro ⟨credit, h, -⟩
  exact h

theorem afterRecord_looks (tenantID : UUID) (s : BankDepositSession) (credit : IncomingBankCredit) :
    (afterRecord tenantID s credit).Follows (Looks tables) ∧
      ∀ s' t, (afterRecord tenantID s credit).pos ≠ .before (.recordTx s' t) := by
  have hrest : Sessional tables (rulesFor fun _ => False) s (.recorded (newDepositTx s credit))
      (afterRecord tenantID s credit) := received_sessional tenantID s credit
  refine ⟨hrest.looks records_nothing, fun s' t hpos => ?_⟩
  have hcarries := hrest.2
  rw [hpos] at hcarries
  cases hcarries.2.1

theorem creditReceived_looks (tenantID : UUID) (credit : IncomingBankCredit) :
    (handleBankCreditReceived tenantID credit).Follows (Looks tables) := by
  intro a db
  dsimp only
  split
  · obtain ⟨hfollows, hpos⟩ := afterRecord_looks tenantID db.row credit
    refine ⟨.idle fun s t => ?_, looks_findTx hfollows hpos⟩
    nofun
  · exact ⟨.returned, trivial⟩

/-- **A credit is recorded only right after a lookup that did not find it.** -/
theorem handler_looks {credits : List InboundPayload} (m : BankMessage credits) :
    (bankDepositHandler m).Follows (Looks tables) := by
  have hlooks : ∀ {p}, Sessional tables (rulesFor fun _ => False) default .loaded p → p.Follows (Looks tables) :=
    fun h => h.looks records_nothing
  cases m with
  | inbound index p =>
    show (handleInboundBankCredit index p).Follows (Looks tables)
    unfold handleInboundBankCredit
    split
    · trivial
    split
    · intro a db
      dsimp only
      split
      · refine ⟨.idle fun s t => ?_, creditReceived_looks _ _⟩
        nofun
      split <;> exact ⟨.returned, trivial⟩
    · trivial
  | outbox e treasuryErr =>
    show (handleBankDepositEvent treasuryErr e).Follows (Looks tables)
    unfold handleBankDepositEvent
    split
    · exact creditReceived_looks _ _
    · exact hlooks (creditResult_sessional _ _)
    · exact hlooks (settlementResult_sessional _ _)
    · trivial
  | expire tenantID => exact hlooks (expireSession_sessional tenantID)
  | cancel tenantID => exact hlooks (cancelSession_sessional tenantID)

end Handlers

/-! ## The invariant -/

/-- The reference of the credit a thread is about to record. -/
def toRecord : Position → List String
  | .before (.recordTx _ t) => [t.bankReference]
  | _ => []

def references (db : DB) (ps : List Position) : List String := db.txs.map (·.bankReference) ++ ps.flatMap toRecord

def recordedTotal (db : DB) : Decimal := ((recorded db).map (·.amount)).sum

def Genuine (credits : List InboundPayload) (t : BankDepositTransaction) : Prop :=
  ∃ p ∈ credits, p.bankReference = t.bankReference ∧ p.amount = some t.amount

/-- A thread carries a copy that is covered by the recorded credits, and what it is about to
record is a credit of the bank. -/
structure Covered (credits : List InboundPayload) (db : DB) (q : Position) : Prop where
  copy : ∃ s h, Carries (rulesFor (Comes credits)) s h q ∧ s.id = db.row.id ∧
    s.receivedAmount + h.amount (·.amount) ≤ recordedTotal db
  genuine : ∀ s t, q = .before (.recordTx s t) → Genuine credits t

/-- What holds while the credits count once. -/
structure Counted (credits : List InboundPayload) (db : DB) (ps : List Position) : Prop where
  once : (references db ps).Nodup
  genuine : ∀ t ∈ recorded db, Genuine credits t
  covered : db.row.receivedAmount ≤ recordedTotal db
  threads : ∀ q ∈ ps, Covered credits db q

/-- The credit a thread is about to look up. -/
def toFind : Position → Option BankDepositTransaction
  | .before (.findTx _ t) => some t
  | _ => none

/-- A lookup succeeds while no other thread is about to record the credit, and the engine's event
comes back only to a table that has a credit without a reference. -/
def lookedUp {ι : Type} (db : DB) (ps : List Position) : Action ι SessionAnswer → Prop
  | .step i a => ∀ t ∈ ps[i]?.bind toFind,
      a.reply = .ok ∧ t.bankReference ∉ ps.flatMap toRecord ∧
        (t.bankReference = "" → db.txs.any (tables.sameKey t))
  | _ => True

instance {ι : Type} (db : DB) (ps : List Position) (a : Action ι SessionAnswer) : Decidable (lookedUp db ps a) :=
  match a with
  | .step i a => inferInstanceAs (Decidable (∀ t ∈ ps[i]?.bind toFind,
      a.reply = .ok ∧ t.bankReference ∉ ps.flatMap toRecord ∧ (t.bankReference = "" → db.txs.any (tables.sameKey t))))
  | .start _ | .drop _ => .isTrue trivial

section Invariant

variable {credits : List InboundPayload} {db db' : DB} {ps : List Position} {q : Position} {i : ℕ}
  {a : SessionAnswer} {g : SessionStep BankDepositSession BankDepositTransaction BankDepositEntry}

/-- What a thread may do, with the lookups. -/
def MessageDoes (credits : List InboundPayload) (g : SessionStep BankDepositSession BankDepositTransaction BankDepositEntry)
    (a : SessionAnswer) (db db' : DB) (q : Position) : Prop :=
  SessionDoes tables (rulesFor (Comes credits)) g a db db' q ∧ Looks tables g a db db' q

theorem toRecord_eq_nil (h : ∀ s t, q ≠ .before (.recordTx s t)) : toRecord q = [] := by
  unfold toRecord
  split
  · rename_i s t
    exact absurd rfl (h s t)
  · rfl

variable {s : BankDepositSession} {t : BankDepositTransaction}

theorem recorded_record {t' : BankDepositTransaction}
    (h : t' ∈ recorded { db with row := tables.accumulate t db.row, txs := db.txs ++ [tables.insert t] }) :
    t' ∈ recorded db ∨ t' = t := by
  obtain ⟨hmem, hid⟩ := mem_filter.1 h
  rcases mem_append.1 hmem with hmem | hmem
  · exact .inl (mem_filter.2 ⟨hmem, hid⟩)
  · exact .inr (mem_singleton.1 hmem)

section Step

variable (hok : lookedUp db ps (.step i a : Action (BankMessage credits) SessionAnswer))
include hok

theorem lookedUp_find (hi : ps[i]? = some (.before (.findTx s t))) :
    a.reply = .ok ∧ t.bankReference ∉ ps.flatMap toRecord ∧
      (t.bankReference = "" → db.txs.any (tables.sameKey t)) := by
  apply hok t
  rw [hi]
  rfl

/-- **No reference is recorded twice.** -/
theorem references_step (hi : ps[i]? = some (.before g)) (hG : MessageDoes credits g a db db' q)
    (honce : (references db ps).Nodup) : (references db' (ps.set i q)).Nodup := by
  obtain ⟨hperm, hset⟩ := perm_rest hi
  rw [references, ((hperm.flatMap_right toRecord).append_left _).nodup_iff, flatMap_cons] at honce
  rw [references, (((hset q).flatMap_right toRecord).append_left _).nodup_iff, flatMap_cons]
  obtain ⟨hdoes, hlooks⟩ := hG
  by_cases hq : ∃ s t, q = .before (.recordTx s t)
  case pos =>
    obtain ⟨s, t, rfl⟩ := hq
    obtain ⟨rfl, hmissing⟩ := hlooks s t rfl
    obtain ⟨hreply, hother, -⟩ := lookedUp_find hok hi
    have hnew : t.bankReference ∉ db.txs.map (·.bankReference) := by
      intro hmem
      obtain ⟨t', ht', hsame⟩ := mem_map.1 hmem
      exact any_eq_false.1 (hmissing hreply) t' ht' (decide_eq_true hsame.symm)
    have hrest : t.bankReference ∉ (ps.eraseIdx i).flatMap toRecord := by
      intro hmem
      obtain ⟨q, hq, hmem⟩ := mem_flatMap.1 hmem
      exact hother (mem_flatMap.2 ⟨q, mem_of_mem_eraseIdx hq, hmem⟩)
    cases hdoes with
    | looked _ =>
      show (db.txs.map (·.bankReference) ++ t.bankReference :: (ps.eraseIdx i).flatMap toRecord).Nodup
      rw [perm_middle.nodup_iff, nodup_cons]
      exact ⟨fun h => (mem_append.1 h).elim hnew hrest, honce⟩
  case neg =>
    have hnil : toRecord q = [] := toRecord_eq_nil fun s t h => hq ⟨s, t, h⟩
    rw [hnil, nil_append]
    have hless : (db.txs.map (·.bankReference) ++ (ps.eraseIdx i).flatMap toRecord).Nodup :=
      honce.sublist (List.Sublist.append_left (sublist_append_right _ _) _)
    cases hdoes with
    | refused | loaded | looked | tenant | written => exact hless
    | @recorded s t _ _ _ _ =>
      -- the reference moves from the thread to the table
      rw [map_append, append_assoc]
      exact honce

theorem looked_genuine (hi : ps[i]? = some (.before (.findTx s t)))
    (hpays : (rulesFor (Comes credits)).Pays s t)
    (hmissing : a.reply = .ok → db.txs.any (tables.sameKey t) = false) : Genuine credits t := by
  obtain ⟨hreply, -, hempty⟩ := lookedUp_find hok hi
  obtain ⟨credit, hcomes, rfl⟩ := hpays
  rcases hcomes with hnone | ⟨p, hp, amount, hamount, rfl⟩
  · have hfound := hempty hnone
    rw [hmissing hreply] at hfound
    cases hfound
  · exact ⟨p, hp, rfl, hamount⟩

/-- **What a store call does to the count.** -/
theorem counted_step (hnonneg : ∀ p ∈ credits, ∀ amount, p.amount = some amount → 0 ≤ amount)
    (hi : ps[i]? = some (.before g)) (hG : MessageDoes credits g a db db' q)
    (hJ : Counted credits db ps) :
    db'.row.id = db.row.id ∧ recordedTotal db ≤ recordedTotal db' ∧ (∀ t ∈ recorded db', Genuine credits t) ∧
      db'.row.receivedAmount ≤ recordedTotal db' ∧ Covered credits db' q := by
  obtain ⟨hdoes, hlooks⟩ := hG
  obtain ⟨⟨s₀, h₀, hcarries, hid, hcovered⟩, hgenuine⟩ := hJ.threads _ (List.mem_of_getElem? hi)
  -- the copy is that of the thread before, or the row
  have hfrom : ∀ {s h}, Carries (rulesFor (Comes credits)) s h q → s.id = db.row.id →
      s.receivedAmount + h.amount (·.amount) ≤ recordedTotal db →
      (∀ s t, q = .before (.recordTx s t) → Genuine credits t) → Covered credits db q :=
    fun hq hid hle hrecord => ⟨⟨_, _, hq, hid, hle⟩, hrecord⟩
  have hrow : db.row.receivedAmount + Held.amount BankDepositTransaction.amount .loaded ≤ recordedTotal db := by
    rw [Held.amount_loaded, add_zero]
    exact hJ.covered
  have hsame : ∀ hq : Covered credits db q, db.row.id = db.row.id ∧ recordedTotal db ≤ recordedTotal db ∧
      (∀ t ∈ recorded db, Genuine credits t) ∧ db.row.receivedAmount ≤ recordedTotal db ∧ Covered credits db q :=
    fun hq => ⟨rfl, le_refl _, hJ.genuine, hJ.covered, hq⟩
  cases hdoes with
  | refused =>
    refine hsame (hfrom trivial rfl hrow fun s t hqs => ?_)
    cases hqs
  | loaded hq =>
    refine hsame (hfrom hq rfl hrow fun s t hqs => ?_)
    cases (hlooks s t hqs).1
  | looked hq =>
    obtain ⟨rfl, rfl, hpays⟩ := hcarries
    refine hsame (hfrom hq hid hcovered fun s t hqs => ?_)
    obtain ⟨hg, hmissing⟩ := hlooks s t hqs
    cases hg
    exact looked_genuine hok hi hpays hmissing
  | tenant hq =>
    obtain ⟨rfl, rfl⟩ := hcarries
    refine hsame (hfrom hq hid hcovered fun s t hqs => ?_)
    cases (hlooks s t hqs).1
  | @recorded s t _ _ _ hq =>
    obtain ⟨rfl, rfl, credit, -, rfl⟩ := hcarries
    have ht := hgenuine _ _ rfl
    have hpos : 0 ≤ credit.amount := by
      obtain ⟨p, hp, -, hamount⟩ := ht
      exact hnonneg p hp _ hamount
    have htotal : recordedTotal _ = recordedTotal db + _ := amounts.sum_record (t := newDepositTx s credit) hid
    rw [htotal]
    rw [Held.amount_loaded, add_zero] at hcovered
    refine ⟨rfl, le_add_of_nonneg_right hpos, fun t ht' => ?_, add_le_add_left hJ.covered _,
      ⟨s, _, hq, hid, ?_⟩, fun s t hqs => ?_⟩
    · rcases recorded_record ht' with h | rfl
      · exact hJ.genuine t h
      · exact ht
    · rw [htotal]
      exact add_le_add_left hcovered _
    · cases (hlooks s t hqs).1
  | @written s es _ _ _ hv hq =>
    obtain ⟨⟨-, hids, -, hreceived⟩, -⟩ := hcarries
    have hle : s.receivedAmount ≤ recordedTotal db := hreceived ▸ hcovered
    refine ⟨rfl, le_refl _, hJ.genuine, hle, ⟨s, _, hq, hids.trans hid, ?_⟩, fun s t hqs => ?_⟩
    · rw [Held.amount_written, add_zero]
      exact hle
    · cases (hlooks s t hqs).1

end Step

/-- **The credits go on counting once.** -/
theorem counted_keeps (hnonneg : ∀ p ∈ credits, ∀ amount, p.amount = some amount → 0 ≤ amount) :
    Keeps (MessageDoes credits) (@bankDepositHandler credits) lookedUp (Counted credits) := by
  intro db ps a db' ps' hJ hok heff
  cases heff with
  | start m =>
    have hnew : Sessional tables (rulesFor (Comes credits)) db.row .written (bankDepositHandler m) := handler_sessional m
    refine ⟨?_, hJ.genuine, hJ.covered, fun q hq => ?_⟩
    · have hnil : toRecord (bankDepositHandler m).pos = [] := by
        refine toRecord_eq_nil fun s t hpos => ?_
        have hcarries := hnew.2
        rw [hpos] at hcarries
        cases hcarries.2.1
      simpa [references, hnil] using hJ.once
    rcases mem_append.1 hq with hq | hq
    · exact hJ.threads q hq
    rw [mem_singleton.1 hq]
    refine ⟨⟨db.row, .written, hnew.2, rfl, ?_⟩, fun s t hpos => ?_⟩
    · rw [Held.amount_written, add_zero]
      exact hJ.covered
    · have hcarries := hnew.2
      rw [hpos] at hcarries
      cases hcarries.2.1
  | drop i =>
    refine ⟨hJ.once.sublist ?_, hJ.genuine, hJ.covered, fun q hq => hJ.threads q (mem_of_mem_eraseIdx hq)⟩
    exact List.Sublist.append_left ((eraseIdx_sublist ps i).flatMap toRecord) _
  | idle i a => exact hJ
  | step i a g db' q hi hG =>
    obtain ⟨hid, htotal, hgenuine, hcovered, hq⟩ := counted_step hok hnonneg hi hG hJ
    refine ⟨references_step hok hi hG hJ.once, hgenuine, hcovered, forall_mem_set (fun q' hq' => ?_) hq⟩
    obtain ⟨⟨s, held, hq, hs, hle⟩, hgenuine⟩ := hJ.threads q' hq'
    exact ⟨⟨s, held, hq, hs.trans hid.symm, hle.trans htotal⟩, hgenuine⟩

def sent (credits : List InboundPayload) : Decimal := (credits.map fun p => p.amount.getD 0).sum

theorem genuine_le_sent (hnonneg : ∀ p ∈ credits, ∀ amount, p.amount = some amount → 0 ≤ amount)
    {ts : List BankDepositTransaction} (honce : (ts.map (·.bankReference)).Nodup) (hts : ∀ t ∈ ts, Genuine credits t) :
    (ts.map (·.amount)).sum ≤ sent credits := by
  -- compare references with amounts
  let paid (t : BankDepositTransaction) : String × Decimal := (t.bankReference, t.amount)
  let owed (p : InboundPayload) : String × Decimal := (p.bankReference, p.amount.getD 0)
  have hnodup : (ts.map paid).Nodup := by
    refine List.Nodup.of_map Prod.fst ?_
    rw [map_map]
    exact honce
  have hsubset : ts.map paid ⊆ credits.map owed := by
    intro x hx
    obtain ⟨t, ht, rfl⟩ := mem_map.1 hx
    obtain ⟨p, hp, href, hamount⟩ := hts t ht
    refine mem_map.2 ⟨p, hp, ?_⟩
    simp only [owed, paid, href, hamount, Option.getD_some]
  obtain ⟨l, hperm, hsublist⟩ := subperm_of_subset hnodup hsubset
  have hpos : ∀ x ∈ (credits.map owed).map Prod.snd, 0 ≤ x := by
    simp only [map_map, mem_map, Function.comp_apply, forall_exists_index, and_imp, forall_apply_eq_imp_iff₂]
    intro p hp
    cases hamount : p.amount with
    | none => simp [owed, hamount]
    | some amount => simpa [owed, hamount] using hnonneg p hp amount hamount
  calc (ts.map (·.amount)).sum = ((ts.map paid).map Prod.snd).sum := by rw [map_map]; rfl
    _ = (l.map Prod.snd).sum := ((hperm.map _).sum_eq).symm
    _ ≤ ((credits.map owed).map Prod.snd).sum := (hsublist.map _).sum_le_sum hpos
    _ = sent credits := by rw [map_map]; rfl

end Invariant

end Settla.BankDeposit

namespace Settla.Node

open Settla.Core Settla.BankDeposit Lib Lib.Threads List

/-- **Each bank credit counts once.** Credits are delivered any number of times and in any order,
with the outbox entries of the engine, expiries and cancellations. As long as every lookup succeeds
while no other thread is about to record the same reference, and the engine's event comes back only
to a table with a credit that has no reference, the amount received is at most the sum of the
credits, and there is one row per reference. -/
theorem credits_count_once (credits : List InboundPayload) (db : BankDeposit.DB)
    (as : List (Action (BankMessage credits) SessionAnswer))
    (hnonneg : ∀ p ∈ credits, ∀ amount, p.amount = some amount → 0 ≤ amount)
    (hreceived : db.row.receivedAmount ≤ 0) (hrecorded : recorded db = [])
    (hrows : (db.txs.map (·.bankReference)).Nodup) (has : Meets bankDepositHandler lookedUp (System.init db) as) :
    let db' := (run (System.act bankDepositHandler) (System.init db) as).state
    db'.row.receivedAmount ≤ sent credits ∧ (db'.txs.map (·.bankReference)).Nodup := by
  intro db'
  have hcode : ∀ m : BankMessage credits, (bankDepositHandler m).Follows (MessageDoes credits) := by
    intro m
    have hsessional : Sessional tables (rulesFor (Comes credits)) default .loaded (bankDepositHandler m) :=
      handler_sessional m
    exact hsessional.1.and (handler_looks m)
  have hinit : Counted credits db [] := by
    refine ⟨by simpa [references] using hrows, by simp [hrecorded], ?_, fun q hq => by cases hq⟩
    rw [recordedTotal, hrecorded]
    exact hreceived
  obtain ⟨-, hJ⟩ := run_keeps hcode (counted_keeps hnonneg) (init_following db) hinit has
  have honce : (db'.txs.map (·.bankReference)).Nodup := hJ.once.sublist (sublist_append_left _ _)
  have hours : ((recorded db').map (·.bankReference)).Nodup := honce.sublist (filter_sublist.map _)
  exact ⟨hJ.covered.trans (genuine_le_sent hnonneg hours hJ.genuine), honce⟩

def samplePayload (bankReference : String) (amount : ℕ) : InboundPayload :=
  ⟨"partner", "account", some amount, "GBP", "payer", "payer account", "", bankReference⟩

def sampleIndex : VirtualAccountIndex := ⟨1, .temporary⟩

def sampleMessage : BankMessage [samplePayload "a" 10] := .inbound (some sampleIndex) ⟨_, List.mem_singleton_self _⟩

theorem credits_count_once_redelivered :
    let db := (run (System.act bankDepositHandler) (System.init ⟨sampleBankSession, [], []⟩)
      (inOrder [sampleMessage, sampleMessage] 9 {})).state
    db.row.receivedAmount = 10 ∧ db.row.receivedAmount ≤ sent [samplePayload "a" 10] := by
  refine ⟨by decide +kernel, ?_⟩
  refine (credits_count_once _ ⟨sampleBankSession, [], []⟩ _ ?_ (le_refl _) rfl nodup_nil (by decide +kernel)).1
  intro p hp amount hamount
  rw [List.mem_singleton.1 hp] at hamount
  rw [← Option.some.inj hamount]
  exact Nat.cast_nonneg 10

def atTheSameTime {ι : Type} (m m' : ι) (n : ℕ) : List (Action ι SessionAnswer) :=
  [.start m, .start m'] ++ (List.replicate n [.step 0 {}, .step 1 {}]).flatten

/-- **A credit can count twice.** The outbox delivers the event the engine has written for a credit
of 10: 20 are received. Or the credit is delivered twice at the same time. -/
theorem credit_counts_twice :
    (let s := run (System.act bankDepositHandler) (System.init ⟨sampleBankSession, [], []⟩) (inOrder [sampleMessage] 9 {})
      ∃ e ∈ s.state.outbox,
        let as := inOrder [sampleMessage, .outbox e none] 9 {}
        let s' := run (System.act bankDepositHandler) (System.init ⟨sampleBankSession, [], []⟩) as
        s'.state.row.receivedAmount = 20 ∧ sent [samplePayload "a" 10] = 10) ∧
    (let as := atTheSameTime sampleMessage sampleMessage 9
      let s := run (System.act bankDepositHandler) (System.init ⟨sampleBankSession, [], []⟩) as
      s.state.txs.map (·.bankReference) = ["a", "a"]) := by
  refine ⟨?_, ?_⟩ <;> decide +kernel

end Settla.Node
