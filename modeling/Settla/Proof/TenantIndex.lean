import Settla.Cache.TenantIndex
import Settla.Lib.Run

/-!
# The walk over all tenants, and the index against the table

A failed scan, also one that the callback's own error ended, starts the walk again from the table. A rebuild keeps the
index right only if nothing happens meanwhile.
-/

namespace Settla.Cache

open Api Lib List

variable {fn redis postgres : ℕ → Option String} {ids rest tenants : List UUID} {passed : List (List UUID)}
  {w : Walk}

/-- **A walk over `ids`** passes them on in order, all of them if it succeeds, up to an error of the callback. -/
structure Walks (fn : ℕ → Option String) (passed : List (List UUID)) (ids : List UUID) (w : Walk) : Prop where
  more : ∃ batches, w.2 = passed ++ batches ∧ batches.flatten <+: ids ∧ (w.1 = none → batches.flatten = ids)
  stops : ∀ i, passed.length ≤ i → i + 1 < w.2.length → fn i = none

theorem walks_still (h : w.1 = none → ids = []) (hw : w.2 = passed) : Walks fn passed ids w :=
  ⟨⟨[], by simpa using hw, nil_prefix, fun hn => (h hn).symm⟩, fun i hi hlt => by rw [hw] at hlt; omega⟩

theorem walks_call {next : List (List UUID) → Walk} (h : Walks fn (passed ++ [ids]) rest (next (passed ++ [ids]))) :
    Walks fn passed (ids ++ rest) (call fn ids passed next) := by
  unfold call
  split
  · exact ⟨⟨[ids], rfl, by simp, fun hn => by cases hn⟩, fun i hi hlt => by simp at hlt; omega⟩
  · rename_i hfn
    obtain ⟨batches, hw, hpre, hall⟩ := h.more
    refine ⟨⟨ids :: batches, by simpa using hw, by simpa using hpre, fun hn => by simpa using hall hn⟩, fun i hi hlt => ?_⟩
    rcases hi.eq_or_lt with rfl | hi
    · exact hfn
    · exact h.stops i (by simpa using Nat.succ_le_of_lt hi) hlt

theorem walks_redis (i : ℕ) (pages : List (List String)) (passed : List (List UUID)) :
    Walks fn passed (pages.flatten.filterMap uuidParse) (forEachRedis fn redis i pages passed) := by
  induction pages generalizing i passed with
  | nil => exact walks_still (fun _ => rfl) rfl
  | cons keys pages ih =>
    rw [flatten_cons, filterMap_append, forEachRedis]
    split
    · exact walks_still nofun rfl
    · dsimp only
      split
      · rename_i hids
        rw [hids]
        exact ih ..
      · exact walks_call (ih ..)

variable (fn postgres tenants) in
theorem walks_postgres {batchSize : ℕ} (hbatch : 0 < batchSize) (offset : ℕ) (passed : List (List UUID)) :
    Walks fn passed (tenants.drop offset) (forEachTenantBatch fn postgres batchSize tenants offset passed) := by
  fun_induction forEachTenantBatch fn postgres batchSize tenants offset passed with
  | case1 => exact walks_still nofun rfl
  | case2 offset passed _ ids hids =>
    have hlen := congrArg length hids
    rw [length_take, length_drop, length_nil] at hlen
    exact walks_still (fun _ => drop_of_length_le (by omega)) rfl
  | case3 offset passed _ ids _ ih =>
    rw [← take_append_drop batchSize (tenants.drop offset)]
    refine walks_call ?_
    split
    · rename_i hlt
      rw [length_take] at hlt
      exact walks_still (fun _ => drop_of_length_le (by omega)) rfl
    · rw [drop_drop]
      exact ih _

/-- The batches that a scan of the pages passes on. -/
def batchesOf (pages : List (List String)) : List (List UUID) := (pages.map (·.filterMap uuidParse)).filter (· ≠ [])

theorem exists_mem_batchesOf {pages : List (List String)} (h : batchesOf pages ≠ []) :
    ∃ t, t ∈ (batchesOf pages).flatten := by
  obtain ⟨ids, hids⟩ := exists_mem_of_ne_nil _ h
  have hne : ids ≠ [] := by simpa using (mem_filter.1 hids).2
  obtain ⟨t, ht⟩ := exists_mem_of_ne_nil _ hne
  exact ⟨t, mem_flatten.2 ⟨ids, hids, ht⟩⟩

theorem length_batchesOf_lt {pages pages' : List (List String)} {k : ℕ}
    (h : batchesOf (pages.take (k + 1)) = batchesOf (pages.take k) ++ [ids]) (hle : (pages.take (k + 1)).Sublist pages') :
    (batchesOf (pages.take k)).length < (batchesOf pages').length := by
  have hlen : (batchesOf (pages.take (k + 1))).length ≤ (batchesOf pages').length := ((hle.map _).filter _).length_le
  rwa [h, length_append, length_singleton] at hlen

/-- How a scan ends: after all pages, at a page that Redis does not give, or with an error of the callback. -/
inductive Scans (fn redis : ℕ → Option String) (pages : List (List String)) : Walk → Prop
  | done : (∀ k < pages.length, redis k = none) → (∀ j < (batchesOf pages).length, fn j = none) →
      Scans fn redis pages (none, batchesOf pages)
  | redisFails {k err} : k < pages.length → (∀ k' < k, redis k' = none) → redis k = some err →
      (∀ j < (batchesOf (pages.take k)).length, fn j = none) →
      Scans fn redis pages (some err, batchesOf (pages.take k))
  | callFails {k ids err} : k < pages.length → (∀ k' ≤ k, redis k' = none) →
      batchesOf (pages.take (k + 1)) = batchesOf (pages.take k) ++ [ids] →
      fn (batchesOf (pages.take k)).length = some err → Scans fn redis pages (some err, batchesOf (pages.take (k + 1)))

theorem scans (before pages : List (List String)) (hredis : ∀ k < before.length, redis k = none)
    (hfn : ∀ j < (batchesOf before).length, fn j = none) :
    Scans fn redis (before ++ pages) (forEachRedis fn redis before.length pages (batchesOf before)) := by
  induction pages generalizing before with
  | nil =>
    rw [append_nil]
    exact .done hredis hfn
  | cons keys pages ih =>
    rw [forEachRedis]
    split
    · rename_i err herr
      have h : Scans fn redis (before ++ keys :: pages) (some err, batchesOf ((before ++ keys :: pages).take before.length)) :=
        .redisFails (by simp) hredis herr (by simpa using hfn)
      simpa using h
    · rename_i hnone
      have hredis' : ∀ k < (before ++ [keys]).length, redis k = none := by
        intro k hk
        rw [length_append, length_singleton, Nat.lt_succ_iff] at hk
        rcases hk.eq_or_lt with rfl | hk
        · exact hnone
        · exact hredis k hk
      dsimp only
      split
      · rename_i hids
        have hsame : batchesOf (before ++ [keys]) = batchesOf before := by simp [batchesOf, hids]
        have h := ih (before ++ [keys]) hredis' (by rwa [hsame])
        simpa [hsame] using h
      · rename_i hids
        have hmore : batchesOf (before ++ [keys]) = batchesOf before ++ [keys.filterMap uuidParse] := by
          simp [batchesOf, hids]
        unfold call
        split
        · rename_i err herr
          have htake : (before ++ keys :: pages).take before.length = before ∧
              (before ++ keys :: pages).take (before.length + 1) = before ++ [keys] := by simp [take_append]
          rw [← hmore, ← htake.2]
          have hnext : batchesOf ((before ++ keys :: pages).take (before.length + 1)) =
              batchesOf ((before ++ keys :: pages).take before.length) ++ [keys.filterMap uuidParse] := by
            rw [htake.1, htake.2]
            exact hmore
          refine .callFails (by simp) (fun k hk => hredis' k (by simpa [Nat.lt_succ_iff] using hk)) hnext ?_
          rw [htake.1]
          exact herr
        · rename_i hok
          have h := ih (before ++ [keys]) hredis' (by
            rw [hmore, length_append, length_singleton]
            intro j hj
            rcases (Nat.lt_succ_iff.1 hj).eq_or_lt with rfl | hj
            · exact hok
            · exact hfn j hj)
          simpa [hmore] using h

variable (fn postgres tenants) in
/-- **The table is passed on in batches**. If Postgres answers, there is a batch for every tenant, and only an error of
the callback ends the walk before. -/
theorem postgres_batches {batchSize : ℕ} (hbatch : 0 < batchSize) (offset : ℕ) (passed : List (List UUID)) :
    ∃ n, (forEachTenantBatch fn postgres batchSize tenants offset passed).2.length = passed.length + n ∧
      (forEachTenantBatch fn postgres batchSize tenants offset passed).2.flatten =
        passed.flatten ++ (tenants.drop offset).take (n * batchSize) ∧
      ((∀ offset, postgres offset = none) → tenants.length < 2 ^ 31 → offset ≤ tenants.length →
        (offset < tenants.length → 0 < n) ∧
        ((forEachTenantBatch fn postgres batchSize tenants offset passed).1 ≠ none →
          ∃ m, n = m + 1 ∧ fn (passed.length + m) ≠ none)) := by
  fun_induction forEachTenantBatch fn postgres batchSize tenants offset passed with
  | case1 offset passed err herr =>
    refine ⟨0, by simp, by simp, fun hanswers hlen hoffset => ?_⟩
    rw [dif_pos (by omega), hanswers] at herr
    cases herr
  | case2 offset passed _ ids hids =>
    refine ⟨0, by simp, by simp, fun _ _ _ => ⟨fun hlt => ?_, fun h => (h rfl).elim⟩⟩
    have hlen := congrArg length hids
    rw [length_take, length_drop, length_nil] at hlen
    omega
  | case3 offset passed _ ids hids ih =>
    unfold call
    split
    · rename_i err herr
      refine ⟨1, by simp, by simp [ids], fun _ _ _ => ⟨fun _ => Nat.one_pos, fun _ => ⟨0, rfl, by simp [herr]⟩⟩⟩
    · rename_i hok
      split
      · rename_i hlt
        refine ⟨1, by simp, by simp [ids], fun _ _ _ => ⟨fun _ => Nat.one_pos, fun h => (h rfl).elim⟩⟩
      · rename_i hfull
        obtain ⟨n, hlen, hflat, hrest⟩ := ih (passed ++ [ids])
        have hle : offset + batchSize ≤ tenants.length := by
          simp only [ids, length_take, length_drop] at hfull
          omega
        refine ⟨n + 1, by rw [hlen, length_append, length_singleton]; omega, ?_, fun hanswers hsize _ => ?_⟩
        · rw [hflat, flatten_append, flatten_singleton, append_assoc, ← drop_drop, Nat.succ_mul, Nat.add_comm, take_add]
        · refine ⟨fun _ => Nat.succ_pos n, fun herr => ?_⟩
          obtain ⟨m, rfl, hm⟩ := (hrest hanswers hsize hle).2 herr
          refine ⟨m + 1, rfl, ?_⟩
          rwa [length_append, length_singleton, Nat.add_assoc, Nat.add_comm 1] at hm

/-- The scan comes to its end, or no fallback follows it; or Redis fails and the callback has not been called, or fails
later, before a tenant that it was passed comes again. -/
def Harmless (fn redis : ℕ → Option String) (fallback : Option (ℕ → Option String)) (batchSize : ℕ)
    (pages : List (List String)) (tenants : List UUID) : Prop :=
  fallback = none ∨
  ((∀ k < pages.length, redis k = none) ∧ ∀ j < (batchesOf pages).length, fn j = none) ∨
  ∃ k < pages.length, redis k ≠ none ∧ (∀ k' < k, redis k' = none) ∧
    (∀ j < (batchesOf (pages.take k)).length, fn j = none) ∧
    (batchesOf (pages.take k) = [] ∨ ∃ n, fn ((batchesOf (pages.take k)).length + n) ≠ none ∧
      ∀ t ∈ tenants.take ((n + 1) * batchSize), t ∉ (batchesOf (pages.take k)).flatten)

/-- No tenant is passed twice, each one is if there is no error, and nothing is passed after an error of the callback. -/
def VisitsOnce (fn : ℕ → Option String) (tenants : List UUID) (w : Walk) : Prop :=
  w.2.flatten.Nodup ∧ (w.1 = none → ∀ t ∈ tenants, t ∈ w.2.flatten) ∧ ∀ i, i + 1 < w.2.length → fn i = none

theorem walks_visit (hperm : ids.Perm tenants) (hids : tenants.Nodup) (h : Walks fn [] ids w) :
    VisitsOnce fn tenants w := by
  obtain ⟨batches, hw, hpre, hall⟩ := h.more
  rw [nil_append] at hw
  refine ⟨?_, fun hn t ht => ?_, fun i => h.stops i (Nat.zero_le i)⟩
  · rw [hw]
    exact (hperm.nodup_iff.2 hids).sublist hpre.sublist
  · rw [hw, hall hn]
    exact hperm.mem_iff.2 ht

/-- After a scan that failed, the table is passed on as well. -/
theorem fallback_visits {batchSize : ℕ} (hids : tenants.Nodup) (hbatch : 0 < batchSize) (hpassed : passed.flatten.Nodup)
    (hcalls : ∀ j < passed.length, fn j = none)
    (hseen : passed = [] ∨ ∃ n, fn (passed.length + n) ≠ none ∧
      ∀ t ∈ tenants.take ((n + 1) * batchSize), t ∉ passed.flatten) :
    VisitsOnce fn tenants (forEachTenantBatch fn postgres batchSize tenants 0 passed) := by
  obtain ⟨n, hlen, hflat, -⟩ :=
    postgres_batches fn postgres tenants hbatch 0 passed
  obtain ⟨⟨batches, hw, -, hall⟩, hstops⟩ :=
    walks_postgres fn postgres tenants hbatch 0 passed
  rw [drop_zero] at hflat hall
  refine ⟨?_, fun hn t ht => ?_, fun i hi => ?_⟩
  · rw [hflat]
    refine nodup_append.2 ⟨hpassed, hids.sublist (take_sublist _ _), fun t ht t' ht' heq => ?_⟩
    obtain rfl | ⟨m, hm, hdisjoint⟩ := hseen
    · cases ht
    -- the callback is called for no more than `m + 1` batches
    have hle : n ≤ m + 1 := by
      by_contra hlt
      exact hm (hstops _ (Nat.le_add_right _ _) (by rw [hlen]; omega))
    exact hdisjoint t' ((take_sublist_take_left (Nat.mul_le_mul_right _ hle)).subset ht') (heq ▸ ht)
  · rw [hw, flatten_append, hall hn]
    exact mem_append_right _ ht
  · rcases lt_or_ge i passed.length with hlt | hge
    · exact hcalls i hlt
    · exact hstops i hge hi

/-- If the table is read and no tenant is passed again, the callback fails before the first one. -/
theorem fallback_again {batchSize : ℕ} (hbatch : 0 < batchSize) (hanswers : ∀ offset, postgres offset = none)
    (hsize : tenants.length < 2 ^ 31) (hmem : ∀ t ∈ passed.flatten, t ∈ tenants)
    (h : VisitsOnce fn tenants (forEachTenantBatch fn postgres batchSize tenants 0 passed))
    (hpassed : ∃ t, t ∈ passed.flatten) :
    (∀ j < passed.length, fn j = none) ∧ ∃ n, fn (passed.length + n) ≠ none ∧
      ∀ t ∈ tenants.take ((n + 1) * batchSize), t ∉ passed.flatten := by
  obtain ⟨n, hlen, hflat, hends⟩ :=
    postgres_batches fn postgres tenants hbatch 0 passed
  obtain ⟨⟨batches, hw, -, hall⟩, -⟩ :=
    walks_postgres fn postgres tenants hbatch 0 passed
  obtain ⟨t, ht⟩ := hpassed
  obtain ⟨hsome, hfails⟩ := hends hanswers hsize (Nat.zero_le _)
  have hn := hsome (length_pos_of_mem (hmem t ht))
  obtain ⟨hnodup, -, hstop⟩ := h
  refine ⟨fun j hj => hstop j (by rw [hlen]; omega), ?_⟩
  obtain ⟨m, rfl, hm⟩ := hfails fun hnone => by
    rw [hw, flatten_append, hall hnone, drop_zero] at hnodup
    exact (nodup_append.1 hnodup).2.2 t ht t (hmem t ht) rfl
  rw [hflat, drop_zero] at hnodup
  exact ⟨m, hm, fun t ht hseen => (nodup_append.1 hnodup).2.2 t hseen t ht rfl⟩

/-- **Each tenant is passed once** if the scan is harmless, and only then if Postgres answers. -/
theorem forEach_once {fallback : Option (ℕ → Option String)} {batchSize : ℕ} {pages : List (List String)}
    (hpages : (pages.flatten.filterMap uuidParse).Perm tenants) (hids : tenants.Nodup) (hbatch : 0 < batchSize) :
    (Harmless fn redis fallback batchSize pages tenants →
      VisitsOnce fn tenants (forEach fn redis fallback batchSize pages tenants)) ∧
    ((∀ postgres ∈ fallback, ∀ offset, postgres offset = none) → tenants.length < 2 ^ 31 →
      VisitsOnce fn tenants (forEach fn redis fallback batchSize pages tenants) →
      Harmless fn redis fallback batchSize pages tenants) := by
  have hscan : Scans fn redis pages (forEachRedis fn redis 0 pages []) := scans [] pages (by simp) (by simp [batchesOf])
  have hwalk : Walks fn [] (pages.flatten.filterMap uuidParse) (forEachRedis fn redis 0 pages []) := walks_redis 0 pages []
  unfold forEach
  rcases hrun : forEachRedis fn redis 0 pages [] with ⟨_ | err, passed⟩ <;> rw [hrun] at hscan hwalk
  · -- a scan without error
    refine ⟨fun _ => walks_visit hpages hids hwalk, fun _ _ _ => ?_⟩
    cases hscan with
    | done hredis hfn => exact .inr (.inl ⟨hredis, hfn⟩)
  cases fallback with
  | none => exact ⟨fun _ => walks_visit hpages hids ⟨hwalk.more.imp fun _ h => ⟨h.1, h.2.1, nofun⟩, hwalk.stops⟩,
      fun _ _ _ => .inl rfl⟩
  | some postgres =>
    have hmem : ∀ t ∈ passed.flatten, t ∈ tenants := by
      obtain ⟨batches, rfl, hpre, -⟩ := hwalk.more
      exact fun t ht => hpages.mem_iff.1 (hpre.subset ht)
    refine ⟨?_, fun hanswers hsize h => ?_⟩
    · rintro (hf | ⟨hredis, hfn⟩ | ⟨k, hk, hne, hfirst, hcalls, hseen⟩)
      · cases hf
      · cases hscan with
        | redisFails hk _ herr _ =>
          rw [hredis _ hk] at herr
          cases herr
        | callFails hk _ hmore herr =>
          rw [hfn _ (length_batchesOf_lt hmore (take_sublist _ _))] at herr
          cases herr
      · obtain rfl : passed = batchesOf (pages.take k) := by
          cases hscan with
          | @redisFails k' _ _ hfirst' herr' _ =>
            rcases lt_trichotomy k k' with hlt | rfl | hlt
            · exact (hne (hfirst' k hlt)).elim
            · rfl
            · rw [hfirst k' hlt] at herr'
              cases herr'
          | @callFails k' _ _ _ hredis hmore herr =>
            rcases lt_or_ge k' k with hlt | hge
            · rw [hcalls _ (length_batchesOf_lt hmore (take_sublist_take_left hlt))] at herr
              cases herr
            · exact (hne (hredis k hge)).elim
        exact fallback_visits hids hbatch (walks_visit hpages hids hwalk).1 hcalls hseen
    · have hagain := fallback_again hbatch (hanswers postgres rfl) hsize hmem h
      cases hscan with
      | redisFails hk hfirst herr hcalls =>
        refine .inr (.inr ⟨_, hk, by simp [herr], hfirst, hcalls, or_iff_not_imp_left.2 fun hne => ?_⟩)
        exact (hagain (exists_mem_batchesOf hne)).2
      | callFails hk hredis hmore herr =>
        have hnone := (hagain (exists_mem_batchesOf (by simp [hmore]))).1 _
          (by rw [hmore, length_append]; exact Nat.lt_succ_self _)
        rw [herr] at hnone
        cases hnone

theorem forEach_once_fallback :
    VisitsOnce (fun _ => none) [1] (forEach (fun _ => none) (fun _ => some "timeout") (some fun _ => none) 2
      [["00000000000000000000000000000001"]] [1]) :=
  (forEach_once (by decide +kernel) (by decide) (by decide)).1
    (.inr (.inr ⟨0, by decide, by decide, by decide, by decide, .inl rfl⟩))

/-- The tenants of the first page are passed again if the second fails, and a callback that returned an error is
called again. -/
theorem forEach_again :
    forEach (fun _ => none) (fun i => if i = 1 then some "timeout" else none) (some fun _ => none) 2
      [["00000000000000000000000000000001"], []] [1] = (none, [[1], [1]]) ∧
    forEach (fun _ => some "failed") (fun _ => none) (some fun _ => none) 2 [["00000000000000000000000000000001"]]
      [1] = (some "failed", [[1], [1]]) := by
  decide +kernel

/-! ## The index and the table -/

/-- What a rebuild has copied. -/
def Call.Copied (s : Index) : Call → Prop
  | .fetch offset => s.tmp = s.active.take offset
  | .sadd ids offset => s.tmp = s.active.take offset ∧ ids = s.page offset
  | .rename => s.tmp = s.active
  | _ => True

def Call.rebuilding : Call → Bool
  | .fetch _ | .sadd .. | .rename => true
  | _ => false

/-- No other call is rebuilding, and no other change of the tenant waits for the index. -/
def alone (s : Index) (i : ℕ) : Prop :=
  (∀ c ∈ s.calls.eraseIdx i, c.rebuilding = false) ∧
    match s.calls[i]? with
    | some (.commit t _) => ∀ on, .index t on ∉ s.calls
    | _ => True

instance (s : Index) (i : ℕ) : Decidable (alone s i) := by
  unfold alone
  split <;> infer_instance

/-- The index agrees with the table on each tenant whose changes it has. -/
structure Agrees (s : Index) : Prop where
  live : ∀ t, (∀ on, .index t on ∉ s.calls) → (t ∈ s.live ↔ t ∈ s.active)
  pending : ∀ t on, .index t on ∈ s.calls → (on = true ↔ t ∈ s.active)
  copied : ∀ c ∈ s.calls, c.Copied s

variable {s : Index}

theorem page_copied {offset : ℕ} (hshort : (s.page offset).length < defaultTenantBatchSize) :
    s.active.take offset ++ s.page offset = s.active := by
  unfold Index.page at *
  rw [length_take, length_drop] at hshort
  rw [take_of_length_le (i := defaultTenantBatchSize) (by rw [length_drop]; omega), take_append_drop]

/-- A rebuild copies the table. -/
theorem copied_next {c : Call} (h : c.Copied s) : (s.next c).2.Copied (s.next c).1 := by
  cases c with
  | commit | index | rename | done => trivial
  | clear => rfl
  | fetch offset =>
    dsimp only [Index.next]
    split
    · rename_i hempty
      have hall : s.active.take offset ++ s.page offset = s.active := page_copied (by rw [hempty]; decide)
      rw [hempty, append_nil] at hall
      exact h.trans hall
    · exact ⟨h, rfl⟩
  | sadd ids offset =>
    obtain ⟨htmp, rfl⟩ := h
    dsimp only [Index.next]
    rw [htmp]
    split
    · rename_i hshort
      exact page_copied hshort
    · exact take_add.symm

theorem agrees_step {i : ℕ} (h : Agrees s) (hok : alone s i) : Agrees (s.step i) := by
  unfold Index.step
  split
  case h_2 => exact h
  rename_i c hc
  obtain ⟨hold, hnew⟩ := perm_rest hc
  obtain ⟨hothers, hok⟩ := hok
  rw [hc] at hok
  obtain ⟨hlive, hpending, hcopied⟩ := h
  have hcopy := hcopied c (hold.mem_iff.2 mem_cons_self)
  have hrest : ∀ c ∈ s.calls.eraseIdx i, ∀ s, c.Copied s := fun c hc s => by
    have := hothers c hc
    cases c <;> trivial
  simp only [hold.mem_iff, mem_cons] at hlive hpending hok
  refine ⟨fun t hnone => ?_, fun t on hmem => ?_, fun c' hmem => ?_⟩
  · simp only [(hnew _).mem_iff, mem_cons] at hnone
    cases c with
    | commit | index => grind [Index.next, mem_orderedInsert]
    | rename => grind [Index.next, Call.Copied]
    | clear | fetch | sadd | done => grind [Index.next]
  · simp only [(hnew _).mem_iff, mem_cons] at hmem
    cases c with
    | commit => grind [Index.next, mem_orderedInsert]
    | rename | index | clear | fetch | sadd | done => grind [Index.next]
  · rcases mem_cons.1 ((hnew _).mem_iff.1 hmem) with rfl | hmem
    · exact copied_next hcopy
    · exact hrest c' hmem _

/-- A rebuild by itself over the table `active`. -/
def Rebuilds (active : List UUID) (s : Index) : Prop :=
  s.active = active ∧ ∃ c, s.calls = [c] ∧ c.Copied s ∧
    (c = .clear ∨ c.rebuilding = true ∨ c = .done ∧ s.live = active)

theorem rebuilds_step {active : List UUID} (hne : active ≠ []) (s : Index) (i : ℕ) (h : Rebuilds active s) :
    Rebuilds active (s.step i) := by
  obtain ⟨rfl, c, hcalls, hcopied, hc⟩ := h
  unfold Index.step
  rw [hcalls]
  cases i with
  | succ n => exact ⟨rfl, c, hcalls, hcopied, hc⟩
  | zero =>
    refine ⟨?_, (s.next c).2, rfl, copied_next hcopied, ?_⟩
    · cases c <;> grind [Index.next, Call.rebuilding]
    · cases c <;> grind [Index.next, Call.rebuilding, Call.Copied]

/-- **The index converges** if nothing happens during a rebuild and the changes of a tenant follow one another. A
rebuild by itself makes any set agree with a table that is not empty. -/
theorem index_converges (s : Index) (is : List ℕ) (hdone : ∀ c ∈ (run Index.step s is).calls, c = .done)
    (h : (∀ t, t ∈ s.live ↔ t ∈ s.active) ∧ (∀ c ∈ s.calls, c = .clear ∨ ∃ t on, c = .commit t on) ∧
        Along Index.step alone s is ∨
      s.active ≠ [] ∧ s.calls = [.clear]) (t : UUID) :
    t ∈ (run Index.step s is).live ↔ t ∈ (run Index.step s is).active := by
  rcases h with ⟨hstart, hcalls, halone⟩ | ⟨hne, hclear⟩
  · have hinit : Agrees s := by
      refine ⟨fun t _ => hstart t, fun t on h => ?_, fun c h => ?_⟩
      · obtain h | ⟨_, _, h⟩ := hcalls _ h <;> cases h
      · obtain rfl | ⟨_, _, rfl⟩ := hcalls c h <;> trivial
    have hend : Agrees (run Index.step s is) := run_preserves (fun _ _ => agrees_step) hinit halone
    refine hend.live t fun on h => ?_
    cases hdone _ h
  · have hinit : Rebuilds s.active s := ⟨rfl, .clear, hclear, trivial, .inl rfl⟩
    obtain ⟨hactive, c, hcalls, -, hc⟩ := run_invariant (rebuilds_step hne) hinit is
    obtain rfl : c = .done := hdone c (hcalls ▸ mem_singleton.2 rfl)
    simp only [reduceCtorEq, Call.rebuilding, Bool.false_eq_true, true_and, false_or] at hc
    rw [hc, hactive]

theorem index_converges_after :
    2 ∈ (run Index.step ⟨[1, 2], [1, 2], [], [.commit 1 false, .clear]⟩ [0, 1, 1, 1, 1, 0]).live :=
  (index_converges ⟨[1, 2], [1, 2], [], [.commit 1 false, .clear]⟩ [0, 1, 1, 1, 1, 0] (by decide +kernel)
    (.inl ⟨fun _ => Iff.rfl, by simp, by decide +kernel⟩) 2).2 (by decide +kernel)

/-- A rebuild that has read a page puts back who is suspended then, a rebuild does not empty the set, and of two
changes the first may reach the index last. -/
theorem index_differs :
    run Index.step ⟨[1], [1], [], [.clear, .commit 1 false]⟩ [0, 0, 1, 1, 0, 0] = ⟨[], [1], [], [.done, .done]⟩ ∧
    run Index.step ⟨[], [1], [], [.clear]⟩ [0, 0, 0] = ⟨[], [1], [], [.done]⟩ ∧
    run Index.step ⟨[], [], [], [.commit 1 true, .commit 1 false]⟩ [0, 1, 1, 0] = ⟨[], [1], [], [.done, .done]⟩ :=
  ⟨rfl, rfl, rfl⟩

end Settla.Cache
