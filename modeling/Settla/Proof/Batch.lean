import Settla.Ledger.Batch
import Settla.Proof.Matched

/-!
# Batched writes
-/

namespace Settla.Ledger

open List

variable (ledger : ℕ) {entry : Entry} {entries : List Entry} {results : List TBCreateResult}

/-! ## Ranges -/

theorem built_valid (h : validateEntries entry.lines = .ok ()) :
    buildTransfers ledger entry (side .debit entry.lines) (side .credit entry.lines) = .ok (built ledger entry) := by
  obtain ⟨ts, -, hbuild, -⟩ := buildTransfers_made h ledger
  rw [built, hbuild]

/-- **Something is built for a valid entry exactly if it has a debit or a credit.** -/
theorem built_ne_nil (h : validateEntries entry.lines = .ok ()) : built ledger entry ≠ [] ↔ entry.Posts := by
  obtain ⟨ts, hts, hbuild, hmade⟩ := buildTransfers_made h ledger
  have heq : built ledger entry = link ts := by rw [built, hbuild]
  refine ⟨fun hne => ?_, fun hposts => heq ▸ mt link_eq_nil.1 (made_ne_nil h hposts hmade)⟩
  by_contra hno
  have hside : ∀ l ∈ entry.lines, ¬ l.entryType = .debit := fun l hl hty => hno ⟨l, hl, .inl hty⟩
  have hempty : side .debit entry.lines = [] := filter_eq_nil_iff.2 fun l hl => by simpa using hside l hl
  simp only [hempty, matchLines] at hts
  cases hts
  exact hne heq

theorem transfers_valid (h : validateEntries entry.lines = .ok ()) (hposts : entry.Posts) :
    transfers ledger entry = .ok (built ledger entry) :=
  (transfers_eq ledger entry).resolve_left fun hno => (built_ne_nil ledger h).2 hposts hno.2

theorem collect_all (all : List TBTransfer) (entries : List Entry) :
    (collect ledger all entries).1 = all ++ entries.flatMap (built ledger) := by
  induction entries generalizing all with
  | nil => simp [collect]
  | cons e es ih =>
    rw [collect, flatMap_cons]
    unfold built at ih ⊢
    cases buildTransfers ledger e (side .debit e.lines) (side .credit e.lines) with
    | error err => simpa using ih all
    | ok ts => simpa using ih (all ++ ts)

/-- What `flushBatch` sends is what it collects. -/
theorem flushBatch_collect (refuses : TBTransfer → Bool) (entries : List Entry) (reply : Lib.Threads.Reply)
    (store : List TBTransfer) :
    flushBatch refuses ledger entries reply store =
      if reply.applied then (events refuses).create store (collect ledger [] entries).1 else store := by
  rw [collect_all, nil_append]
  rfl

def startOf (ledger : ℕ) (entries : List Entry) (i : ℕ) : ℕ := ((entries.take i).flatMap (built ledger)).length

theorem collect_slots (all : List TBTransfer) (h : ∀ e ∈ entries, validateEntries e.lines = .ok ()) (i : ℕ) :
    (collect ledger all entries).2[i]? =
      (entries[i]?).map fun e => Slot.mk (all.length + startOf ledger entries i) (built ledger e).length [] := by
  induction entries generalizing all i with
  | nil => simp [collect]
  | cons e es ih =>
    obtain ⟨he, hes⟩ := forall_mem_cons.1 h
    have hcollect : (collect ledger all (e :: es)).2 =
        ⟨all.length, (built ledger e).length, []⟩ :: (collect ledger (all ++ built ledger e) es).2 := by
      rw [collect, built_valid ledger he]
    rw [hcollect]
    cases i with
    | zero => rfl
    | succ i =>
      rw [List.getElem?_cons_succ, List.getElem?_cons_succ, ih _ hes]
      unfold startOf
      rw [take_succ_cons, flatMap_cons, length_append, length_append, add_assoc]

/-! ## Results -/

/-- The part of the result codes that belongs to `count` transfers from `start` on, with the
positions counted from there. -/
def slice (start count : ℕ) (results : List TBCreateResult) : List TBCreateResult :=
  (List.range count).flatMap fun j =>
    (results.filter fun r => r.index = UInt32.ofNat (start + j)).map fun r => { r with index := UInt32.ofNat j }

def Clean (start count : ℕ) (results : List TBCreateResult) : Prop :=
  ∀ j < count, ∀ r ∈ results, r.index = UInt32.ofNat (start + j) → r.failed = false

theorem failedIdx_eq_none {index : UInt32} :
    failedIdx results index = none ↔ ∀ r ∈ results, r.index = index → r.failed = false := by
  unfold failedIdx
  rw [Option.map_eq_none_iff, List.getLast?_eq_none_iff, filter_eq_nil_iff]
  refine forall₂_congr fun r _ => ?_
  rw [Bool.and_eq_true, decide_eq_true_eq, and_comm, not_and, Bool.not_eq_true]

theorem entryErr_ok (slot : Slot) : entryErr results slot = .ok () ↔ Clean slot.startIdx slot.count results := by
  have hnone : (List.range' slot.startIdx slot.count).findSome? (fun j =>
      (failedIdx results (UInt32.ofNat j)).map fun code => (j, code)) = none ↔ Clean slot.startIdx slot.count results := by
    rw [List.findSome?_eq_none_iff]
    simp only [List.mem_range'_1, Option.map_eq_none_iff, failedIdx_eq_none]
    constructor
    · intro h j hj
      exact h (slot.startIdx + j) ⟨by omega, by omega⟩
    · rintro h j ⟨hle, hlt⟩
      have hj := h (j - slot.startIdx) (by omega)
      rwa [Nat.add_sub_cancel' hle] at hj
  rw [← hnone]
  unfold entryErr
  cases (List.range' slot.startIdx slot.count).findSome? (fun j =>
    (failedIdx results (UInt32.ofNat j)).map fun code => (j, code)) with
  | none | some => simp

theorem direct_ok (h : validateEntries entry.lines = .ok ()) (hposts : entry.Posts) (start count : ℕ) :
    (∃ ids, tbPostEntriesWith ledger entry (some (slice start count results)) = .ok ids) ↔ Clean start count results := by
  have hclean : (slice start count results).find? (·.failed) = none ↔ Clean start count results := by
    rw [List.find?_eq_none]
    unfold slice Clean
    simp only [mem_flatMap, mem_range, mem_map, mem_filter, decide_eq_true_eq]
    constructor
    · intro hno j hj r hr hindex
      have hfail := hno { r with index := UInt32.ofNat j } ⟨j, hj, r, ⟨hr, hindex⟩, rfl⟩
      exact Bool.eq_false_iff.2 hfail
    · rintro hclean r' ⟨j, hj, r, ⟨hr, hindex⟩, rfl⟩
      have hfail := hclean j hj r hr hindex
      exact Bool.eq_false_iff.1 hfail
  rw [← hclean]
  unfold tbPostEntriesWith
  rw [transfers_valid ledger h hposts]
  dsimp only
  cases (slice start count results).find? (·.failed) with
  | none | some => simp

theorem direct_noTransfers (hvalid : validateEntries entry.lines = .ok ()) (h : ¬ entry.Posts) (answer : CreateAnswer) :
    tbPostEntriesWith ledger entry answer = .error (.building (.noTransfers entry.id)) := by
  have hnil : built ledger entry = [] := not_not.1 (mt (built_ne_nil ledger hvalid).1 h)
  have hnone : transfers ledger entry = .error (.noTransfers entry.id) := by
    rw [transfers, built_valid ledger hvalid, hnil]
    rfl
  rw [tbPostEntriesWith, hnone]

/-- No result is sent for an entry for which nothing is built, once the call succeeds. -/
theorem flush_unanswered (taken : ℕ → Bool) (hvalid : ∀ e ∈ entries, validateEntries e.lines = .ok ()) {i : ℕ}
    (hi : entries[i]? = some entry) (h : ¬ entry.Posts) (results : List TBCreateResult) :
    (flushResults ledger taken entries (some results))[i]? = some [] := by
  have hslot := collect_slots ledger [] hvalid i
  rw [hi, Option.map_some] at hslot
  have hcount : (built ledger entry).length = 0 :=
    length_eq_zero_iff.2 (not_not.1 (mt (built_ne_nil ledger (hvalid entry (List.mem_of_getElem? hi))).1 h))
  unfold flushResults
  dsimp only
  split
  · rw [getElem?_map, hslot]
    rfl
  · rw [List.getElem?_mapIdx, hslot, Option.map_some, if_pos hcount]

theorem collect_isEmpty (ledger : ℕ) {entries : List Entry}
    (hvalid : ∀ e ∈ entries, validateEntries e.lines = .ok ()) :
    (collect ledger [] entries).1.isEmpty = true ↔ ¬ ∃ e ∈ entries, e.Posts := by
  rw [collect_all, nil_append, List.isEmpty_iff, flatMap_eq_nil_iff]
  simp only [not_exists, not_and]
  exact forall₂_congr fun e he => not_iff_not.1 (by rw [not_not]; exact built_ne_nil ledger (hvalid e he))

/-- **Batched equals direct exactly for entries with a debit or a credit.** Then the caller gets one result, and it
is nil exactly if the call with that entry alone and its part of the answer returns no error. Without one there is
a result only if the call for the other entries fails. -/
theorem flush_matches_direct (ledger : ℕ) (taken : ℕ → Bool) (entries : List Entry)
    (hvalid : ∀ e ∈ entries, validateEntries e.lines = .ok ()) (answer : CreateAnswer) (i : ℕ) (entry : Entry)
    (hi : entries[i]? = some entry) :
    (∃ r, (flushResults ledger taken entries answer)[i]? = some [r] ∧
      (r = .ok () ↔ ∃ ids, tbPostEntriesWith ledger entry
        (answer.map (slice (startOf ledger entries i) (built ledger entry).length)) = .ok ids)) ↔
      entry.Posts ∨ answer = none ∧ ∃ e ∈ entries, e.Posts := by
  have hmem := List.mem_of_getElem? hi
  have hentry := hvalid entry hmem
  have hslot := collect_slots ledger [] hvalid i
  rw [hi, Option.map_some, length_nil, zero_add] at hslot
  have hempty := collect_isEmpty ledger hvalid
  by_cases hposts : entry.Posts
  · unfold flushResults
    dsimp only
    have hcount : (built ledger entry).length ≠ 0 := mt length_eq_zero_iff.1 ((built_ne_nil ledger hentry).2 hposts)
    rw [if_neg (mt hempty.1 (not_not.2 ⟨entry, hmem, hposts⟩))]
    refine iff_of_true ?_ (.inl hposts)
    cases answer with
    | none =>
      refine ⟨.error .call, ?_, ?_⟩
      · rw [List.getElem?_mapIdx, hslot]
        rfl
      · unfold tbPostEntriesWith
        rw [transfers_valid ledger hentry hposts]
        simp
    | some results =>
      refine ⟨entryErr results ⟨startOf ledger entries i, (built ledger entry).length, []⟩, ?_, ?_⟩
      · rw [List.getElem?_mapIdx, hslot, Option.map_some, if_neg hcount]
        rfl
      · rw [Option.map_some, direct_ok ledger hentry hposts]
        exact entryErr_ok _
  -- nothing is built, so only a call that fails gives a result
  · rw [or_iff_right hposts]
    cases answer with
    | some results =>
      refine iff_of_false ?_ (by simp)
      rintro ⟨r, hr, -⟩
      rw [flush_unanswered ledger taken hvalid hi hposts] at hr
      cases hr
    | none =>
      unfold flushResults
      dsimp only
      by_cases hsome : ∃ e ∈ entries, e.Posts
      · rw [if_neg (mt hempty.1 (not_not.2 hsome))]
        refine iff_of_true ⟨.error .call, ?_, by simp [direct_noTransfers ledger hentry hposts]⟩ ⟨rfl, hsome⟩
        rw [List.getElem?_mapIdx, hslot]
        rfl
      · rw [if_pos (hempty.2 hsome)]
        refine iff_of_false ?_ fun h => hsome h.2
        rintro ⟨r, hr, -⟩
        rw [getElem?_map, hslot] at hr
        cases hr

theorem second_of_two_fails :
    ∃ r, (flushResults 1 (fun _ => false) [twoCurrencies, twoCurrencies] (some [⟨3, 21⟩]))[1]? = some [r] ∧
      (r = .ok () ↔ ∃ ids, tbPostEntriesWith 1 twoCurrencies
        ((some [⟨3, 21⟩] : CreateAnswer).map
          (slice (startOf 1 [twoCurrencies, twoCurrencies] 1) (built 1 twoCurrencies).length)) = .ok ids) :=
  (flush_matches_direct 1 (fun _ => false) [twoCurrencies, twoCurrencies]
    (forall_mem_cons.2 ⟨twoCurrencies_valid, forall_mem_singleton.2 twoCurrencies_valid⟩) (some [⟨3, 21⟩]) 1 twoCurrencies
    rfl).2 (.inl (by decide +kernel))

/-- Two lines that are neither debits nor credits. -/
def memo : Entry where
  id := 2
  idempotencyKey := "memo"
  lines := [⟨⟨"assets:usd", .other "MEMO", 100, "USD", ""⟩, 1⟩, ⟨⟨"liabilities:usd", .other "MEMO", 100, "USD", ""⟩, 2⟩]

/-- **A caller that waits for ever.** The entry is accepted, the batch with it is written, and no result is sent for
it; posted alone, it is an error. -/
theorem memo_unanswered :
    validateEntries memo.lines = .ok () ∧
      (flushResults 1 (fun _ => false) [memo, twoCurrencies] (some []))[0]? = some [] ∧
      tbPostEntriesWith 1 memo (some []) = .error (.building (.noTransfers 2)) := by
  have hvalid : validateEntries memo.lines = .ok () := by decide +kernel
  have hposts : ¬ memo.Posts := by decide +kernel
  exact ⟨hvalid, flush_unanswered 1 _ (forall_mem_cons.2 ⟨hvalid, forall_mem_singleton.2 twoCurrencies_valid⟩) rfl hposts [],
    direct_noTransfers 1 hvalid hposts _⟩

end Settla.Ledger
