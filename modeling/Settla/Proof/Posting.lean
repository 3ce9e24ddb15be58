import Settla.Ledger.Service
import Settla.Lib.Checks

/-!
# Posting each idempotency key once

TigerBeetle deduplicates by the ID of a transfer, which comes from the ID of the journal entry. Within a
call of `PostEntries` this ID stays the same, so the call posts an entry once (`postEntries_store`). But
each delivery draws its own.
-/

namespace Settla.Ledger

open Lib Lib.Threads List

variable {refuses : TBTransfer → Bool} {ledger : ℕ}

/-! ## The transfers of an entry -/

variable {entry : Entry} {store ts : List TBTransfer}

theorem matchLines_unlinked {idx : ℕ} {debits credits : List EntryLine}
    (h : matchLines ledger entry idx debits credits = .ok ts) : ∀ t ∈ ts, t.linked = false := by
  fun_induction matchLines generalizing ts with
  | case1 => cases h
  | case2 =>
    rename_i ih
    obtain ⟨rest, hrest, hts⟩ := (bind_eq_ok _ _ _).1 h
    cases hts
    intro t ht
    rcases mem_cons.1 ht with rfl | ht
    · rfl
    · exact ih hrest t ht
  | case3 => cases h; nofun

theorem link_isChain (hne : ts ≠ []) (h : ∀ t ∈ ts, t.linked = false) : (events refuses).IsChain (link ts) := by
  induction ts with
  | nil => exact absurd rfl hne
  | cons t ts ih =>
    cases ts with
    | nil => exact ⟨[], t, rfl, by nofun, h t mem_cons_self⟩
    | cons t' ts =>
      obtain ⟨init, last, heq, hinit, hlast⟩ := ih (by nofun) fun x hx => h x (mem_cons_of_mem t hx)
      refine ⟨{ t with linked := true } :: init, last, by rw [link, heq]; rfl, ?_, hlast⟩
      intro x hx
      rcases mem_cons.1 hx with rfl | hx
      · rfl
      · exact hinit x hx

theorem link_eq_nil : link ts = [] ↔ ts = [] := by
  rcases ts with _ | ⟨t, _ | ⟨t', ts⟩⟩ <;> simp [link]

theorem buildTransfers_chain {debits credits : List EntryLine}
    (h : buildTransfers ledger entry debits credits = .ok ts) : ts = [] ∨ (events refuses).IsChain ts := by
  rw [buildTransfers] at h
  cases hm : matchLines ledger entry 0 debits credits with
  | error e => rw [hm] at h; cases h
  | ok us =>
    rw [hm] at h
    cases h
    by_cases hne : us = []
    · exact .inl (link_eq_nil.2 hne)
    · exact .inr (link_isChain hne (matchLines_unlinked hm))

def built (ledger : ℕ) (entry : Entry) : List TBTransfer :=
  match buildTransfers ledger entry (side .debit entry.lines) (side .credit entry.lines) with
  | .error _ => []
  | .ok ts => ts

theorem built_chain (refuses : TBTransfer → Bool) (ledger : ℕ) (entry : Entry) :
    built ledger entry = [] ∨ (events refuses).IsChain (built ledger entry) := by
  unfold built
  split
  · exact .inl rfl
  · rename_i ts hts
    exact buildTransfers_chain hts

theorem transfers_eq (ledger : ℕ) (entry : Entry) :
    (∃ e, transfers ledger entry = .error e) ∧ built ledger entry = [] ∨
      transfers ledger entry = .ok (built ledger entry) := by
  unfold transfers built
  cases buildTransfers ledger entry (side .debit entry.lines) (side .credit entry.lines) with
  | error e => exact .inl ⟨⟨e, rfl⟩, rfl⟩
  | ok ts =>
    by_cases h : ts = []
    · exact .inl ⟨⟨_, if_pos h⟩, h⟩
    · exact .inr (if_neg h)

theorem apply_nil (E : Events TBTransfer ID128) (store : List TBTransfer) : E.apply store [] = store := by
  simp [Events.apply]

theorem create_built (refuses : TBTransfer → Bool) (ledger : ℕ) (entry : Entry) (rest store : List TBTransfer) :
    (events refuses).create store (built ledger entry ++ rest) =
      (events refuses).create ((events refuses).apply store (built ledger entry)) rest := by
  rcases built_chain refuses ledger entry with h | h
  · rw [h, nil_append, apply_nil]
  · exact create_append h store rest

def postOnce (refuses : TBTransfer → Bool) (ledger : ℕ) (store : List TBTransfer) (entry : Entry) : List TBTransfer :=
  (events refuses).apply store (built ledger entry)

/-! ## The attempts of a call -/

theorem retry_store {σ ε : Type} {f : Reply → σ → Except ε Unit × σ} {g : σ → σ}
    (hf : ∀ r s, (f r s).2 = if r.applied then g s else s) (hok : ∀ r s, (f r s).1 = .ok () → r.applied = true)
    (hg : ∀ s, g (g s) = g s) (n : ℕ) (e : ε) (rs : List Reply) (s : σ) :
    (retry f n e rs s).2 = if (rs.take n).any Reply.applied then g s else s := by
  induction n generalizing e rs s with
  | zero => rfl
  | succ n ih =>
    cases rs with
    | nil => rfl
    | cons r rs =>
      have hstore := hf r s
      have happlied := hok r s
      rw [retry, take_succ_cons, any_cons]
      revert hstore happlied
      generalize f r s = out
      obtain ⟨o, s'⟩ := out
      intro hstore happlied
      dsimp only at hstore happlied
      cases o with
      | ok u =>
        have hr : r.applied = true := happlied rfl
        rw [hr, Bool.true_or, if_pos rfl]
        rw [hr, if_pos rfl] at hstore
        exact hstore
      | error e' =>
        rw [ih, hstore]
        -- a later attempt after one that was carried out does nothing
        cases r.applied <;> cases (rs.take n).any Reply.applied <;> simp [hg]

theorem tbPostEntries_store (entry : Entry) (r : Reply) (store : List TBTransfer) :
    (tbPostEntries refuses ledger entry r store).2 = if r.applied then postOnce refuses ledger store entry else store := by
  unfold tbPostEntries
  rcases transfers_eq ledger entry with ⟨⟨e, h⟩, hnil⟩ | h
  · rw [h, postOnce, hnil, apply_nil, ite_self]
  · have hcreate : (events refuses).create store (built ledger entry) = postOnce refuses ledger store entry := by
      have hrest := create_built refuses ledger entry [] store
      rwa [append_nil] at hrest
    rw [h, ← hcreate]

/-- **Batching makes no difference** to the store: a batch does what its entries do one after the other. -/
theorem flushBatch_store (r : Reply) (entries : List Entry) (store : List TBTransfer) :
    flushBatch refuses ledger entries r store = run (fun s e => (tbPostEntries refuses ledger e r s).2) store entries := by
  simp only [tbPostEntries_store, flushBatch]
  show (if r.applied then (events refuses).create store (entries.flatMap (built ledger)) else store) = _
  induction entries generalizing store with
  | nil => exact ite_self store
  | cons e es ih =>
    rw [flatMap_cons, create_built, run_cons, ← ih]
    split <;> rfl

theorem tbPostEntries_ok {r : Reply} (h : (tbPostEntries refuses ledger entry r store).1 = .ok ()) :
    r.applied = true := by
  unfold tbPostEntries at h
  split at h
  · cases h
  · by_cases hr : r = .ok
    · rw [hr]; rfl
    · simp [hr] at h

variable (d : Delivery)

def Delivery.reached : Bool := d.ensured && (d.replies.take 3).any Reply.applied

def Delivery.sent (ledger : ℕ) (d : Delivery) : List TBTransfer :=
  if (validateEntries d.entry.lines).isOk && d.reached then built ledger d.entry else []

/-- **A call posts its entry once**, however many attempts it makes. -/
theorem postEntries_store (store : List TBTransfer) :
    (postEntries refuses ledger d.entry d.ensured d.replies store).2 =
      (events refuses).apply store (d.sent ledger) := by
  unfold postEntries Delivery.sent Delivery.reached
  cases validateEntries d.entry.lines with
  | error e => exact (apply_nil _ _).symm
  | ok u =>
    cases d.ensured with
    | false => exact (apply_nil _ _).symm
    | true =>
      have hidem : ∀ s, postOnce refuses ledger (postOnce refuses ledger s d.entry) d.entry =
          postOnce refuses ledger s d.entry := fun s => apply_idem s _
      have hstore := retry_store (tbPostEntries_store d.entry) (fun r s h => tbPostEntries_ok h) hidem 3 PostErr.write
        d.replies store
      refine hstore.trans ?_
      cases (d.replies.take 3).any Reply.applied with
      | false => exact (apply_nil _ _).symm
      | true => rfl

/-! ## All deliveries -/

/-- Each entry has a new ID, and the hash has no collision. -/
def FreshIDs (ledger : ℕ) (store : List TBTransfer) (ds : List Delivery) : Prop :=
  ((store ++ ds.flatMap (Delivery.sent ledger)).map (·.id)).Nodup

instance (store : List TBTransfer) (ds : List Delivery) : Decidable (FreshIDs ledger store ds) :=
  inferInstanceAs (Decidable (List.Nodup _))

/-- The transfers that TigerBeetle applies for a delivery with an ID of its own. -/
def Delivery.moved (refuses : TBTransfer → Bool) (ledger : ℕ) (d : Delivery) : List TBTransfer :=
  if (d.sent ledger).all fun t => !refuses t then d.sent ledger else []

theorem moved_sublist : (d.moved refuses ledger).Sublist (d.sent ledger) := by
  unfold Delivery.moved
  split
  · exact List.Sublist.refl _
  · exact nil_sublist _

theorem sent_closed : ∀ t ∈ (d.sent ledger).getLast?, t.linked = false := by
  unfold Delivery.sent
  split
  · rcases built_chain (fun _ => false) ledger d.entry with h | ⟨init, last, h, -, hlast⟩
    · rw [h]
      nofun
    · rw [h, List.getLast?_concat]
      intro t ht
      cases ht
      exact hlast
  · nofun

/-- **What the deliveries leave in TigerBeetle.** -/
theorem deliver_store {ds : List Delivery} (h : FreshIDs ledger store ds) :
    deliver refuses ledger store ds = store ++ ds.flatMap (Delivery.moved refuses ledger) := by
  induction ds generalizing store with
  | nil => simp [deliver]
  | cons d ds ih =>
    rw [FreshIDs, flatMap_cons, ← append_assoc, map_append] at h
    have hnew : (events refuses).apply store (d.sent ledger) = store ++ d.moved refuses ledger :=
      apply_new (nodup_append.1 h).1 (sent_closed d)
    have hrest : FreshIDs ledger (store ++ d.moved refuses ledger) ds := by
      refine h.sublist ?_
      rw [← map_append]
      exact (((List.Sublist.refl store).append (moved_sublist d)).append (List.Sublist.refl _)).map _
    have hstep : deliver refuses ledger store (d :: ds) =
        deliver refuses ledger ((events refuses).apply store (d.sent ledger)) ds := by
      rw [← postEntries_store]
      rfl
    rw [hstep, hnew, ih hrest, append_assoc, flatMap_cons]

/-! ## Balances -/

theorem posted_append (account : ID128) (xs ys : List TBTransfer) :
    posted account (xs ++ ys) = posted account xs + posted account ys := by
  simp [posted]

theorem posted_perm (account : ID128) {xs ys : List TBTransfer} (h : xs.Perm ys) :
    posted account xs = posted account ys :=
  Prod.ext ((h.filter _).map _).sum_eq ((h.filter _).map _).sum_eq

theorem posted_eq_zero : (∀ account, posted account ts = 0) ↔ ∀ t ∈ ts, t.amount = 0 := by
  constructor
  · intro h t ht
    have hdebits : ((ts.filter (·.debitAccountID = t.debitAccountID)).map (·.amount)).sum = 0 :=
      congrArg Prod.fst (h t.debitAccountID)
    have hmem : t.amount ∈ (ts.filter (·.debitAccountID = t.debitAccountID)).map (·.amount) :=
      mem_map_of_mem (mem_filter.2 ⟨ht, decide_eq_true rfl⟩)
    exact sum_eq_zero_iff.1 hdebits _ hmem
  · intro h account
    have hsum : ∀ us : List TBTransfer, us.Sublist ts → (us.map (·.amount)).sum = 0 := by
      intro us hus
      refine sum_eq_zero fun n hn => ?_
      obtain ⟨t, ht, rfl⟩ := mem_map.1 hn
      exact h t (hus.subset ht)
    exact Prod.ext (hsum _ filter_sublist) (hsum _ filter_sublist)

theorem flatMap_reached (ds : List Delivery) :
    (ds.filter Delivery.reached).flatMap (Delivery.moved refuses ledger) =
      ds.flatMap (Delivery.moved refuses ledger) := by
  induction ds with
  | nil => rfl
  | cons d ds ih =>
    rw [filter_cons, flatMap_cons]
    split
    · rw [flatMap_cons, ih]
    · rename_i hr
      have hnone : d.moved refuses ledger = [] := by simp [Delivery.moved, Delivery.sent, hr]
      rw [hnone, ih, nil_append]

/-- **When each key is posted once.** Messages of the worker and calls of `ReverseEntry` are handled
in any order and number. Every account ends with what each idempotency key gives it once, just if
each repeated delivery moves nothing: it is refused by `ValidateEntries` or by TigerBeetle, or its
amounts vanish at eight places. -/
theorem posted_once_iff (refuses : TBTransfer → Bool) (ledger : ℕ) (store : List TBTransfer) (ds : List Delivery)
    (hfresh : FreshIDs ledger store ds) :
    (∀ account, posted account (deliver refuses ledger store ds) =
      posted account (deliver refuses ledger store (journal Delivery.key (ds.filter Delivery.reached)))) ↔
    ∀ d ∈ repeats Delivery.key (ds.filter Delivery.reached), ∀ t ∈ d.moved refuses ledger, t.amount = 0 := by
  have hsub : (journal Delivery.key (ds.filter Delivery.reached)).Sublist ds :=
    (foldl_applyOnce_sublist Delivery.key [] _).trans filter_sublist
  have hfresh' := List.Nodup.sublist (((List.Sublist.refl store).append (hsub.flatMap _)).map _) hfresh
  rw [deliver_store hfresh, deliver_store hfresh', ← flatMap_reached]
  have hperm : ((ds.filter Delivery.reached).flatMap (Delivery.moved refuses ledger)).Perm
      ((journal Delivery.key (ds.filter Delivery.reached)).flatMap (Delivery.moved refuses ledger) ++
        (repeats Delivery.key (ds.filter Delivery.reached)).flatMap (Delivery.moved refuses ledger)) := by
    rw [← flatMap_append]
    exact (journal_perm Delivery.key (ds.filter Delivery.reached)).symm.flatMap_right _
  have hrepeats : (∀ d ∈ repeats Delivery.key (ds.filter Delivery.reached),
      ∀ t ∈ d.moved refuses ledger, t.amount = 0) ↔
      ∀ t ∈ (repeats Delivery.key (ds.filter Delivery.reached)).flatMap (Delivery.moved refuses ledger), t.amount = 0 := by
    simp only [mem_flatMap]
    exact ⟨fun h t ⟨d, hd, ht⟩ => h d hd t ht, fun h d hd t ht => h t ⟨d, hd, ht⟩⟩
  rw [hrepeats, ← posted_eq_zero]
  refine forall_congr' fun account => ?_
  rw [posted_append, posted_append, posted_perm account hperm, posted_append, add_right_inj, add_eq_left]

def samplePost (key : String) : Message :=
  .post
    { transferID := 1
      tenantID := 1
      idempotencyKey := key
      description := ""
      referenceType := "transfer"
      lines := [⟨"a", .debit, 10, "USD", ""⟩, ⟨"b", .credit, 10, "USD", ""⟩] }

def twoKeys : List Delivery :=
  [{ message := samplePost "k", entryID := 1, replies := [.lost, .ok] }, { message := samplePost "l", entryID := 2 }]

theorem posted_once_distinct :
    FreshIDs 1 [] twoKeys ∧
      ∀ account, posted account (deliver (fun _ => false) 1 [] twoKeys) =
        posted account (deliver (fun _ => false) 1 [] (journal Delivery.key (twoKeys.filter Delivery.reached))) :=
  have hfresh : FreshIDs 1 [] twoKeys := by decide +kernel
  ⟨hfresh, (posted_once_iff _ 1 [] twoKeys hfresh).2 (by decide +kernel)⟩

/-- **A message that is delivered twice is posted twice.** -/
theorem posted_twice :
    let ds : List Delivery := [{ message := samplePost "k", entryID := 1 }, { message := samplePost "k", entryID := 2 }]
    posted (accountIDFromCode "a") (deliver (fun _ => false) 1 [] ds) = (2000000000, 0) ∧
      posted (accountIDFromCode "a") (deliver (fun _ => false) 1 [] (journal Delivery.key ds)) = (1000000000, 0) := by
  decide +kernel

end Settla.Ledger
