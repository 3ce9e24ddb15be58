import Settla.Proof.Creating

/-!
# Creating a transfer twice with one key

The unique index contains the creation time, so it stops a second insert only within the same
microsecond; the lookup alone has to prevent it, and it is a separate step.
-/

namespace Settla.Core

open Lib Lib.Threads List

variable (tenants : UUID → Option Tenant) (T : UUID) (K : String)

def CreateDB.Known (db : CreateDB) (t : Transfer) : Prop := ∃ r ∈ db.rows, r.keyed T K ∧ r.transfer.id = t.id

def CreateDB.keyedRows (db : CreateDB) : ℕ := db.rows.countP (StoredTransfer.keyed T K)

def CreateStep.beforeInsert : CreateStep → Bool
  | .getVolume _ | .sumVolume _ _ | .seedVolume _ _ _ | .persist _ _ _ => true
  | .lookup | .increment _ _ _ => false

def CreateLabel.ofKey (kind : CreateStep → Bool) : CreateLabel → Bool
  | .call T' K' step => T' = T && K' = K && kind step
  | .other => false

/-- What a call with the key knows at a position. -/
def knownAt (db : CreateDB) : CreatePos → Prop
  | .before (.call T' K' step) => T' = T → K' = K →
    match step with
    | .lookup => True
    | .increment _ _ t => db.Known T K t
    | _ => db.keyedRows T K = 0
  | .before .other => True
  | .returned none => True
  | .returned (some r) => r.tenantID = T → r.key = K →
    match r.result with
    | .ok t => db.Known T K t
    | .error _ => True

/-- From the lookup to the insert a call is to be alone with its key, all of whose rows the lookup
sees. -/
def keyRegion : Region CreateDB CreateAnswer CreateLabel (Option CreateReturn) CreateThread where
  inside := CreateLabel.ofKey T K CreateStep.beforeInsert
  entry := CreateLabel.ofKey T K (· = .lookup)
  starts _ := True
  asks g a db := g = .call T K .lookup →
    a.reply = .ok ∧ ∀ r ∈ db.rows, r.keyed T K → db.clock - lookupWindow ≤ r.createdAt
  mayDrop _ := True
  Always db := db.keyedRows T K ≤ 1
  Free _ := True
  Own db q := Consistent tenants q ∧ knownAt T K db q

variable {tenants T K}

variable {a : CreateAnswer} {db db' : CreateDB} {g : CreateLabel} {q : CreatePos}

theorem known_mono {t : Transfer} (h : CreateDoes g a db db' q) (ht : db.Known T K t) : db'.Known T K t := by
  obtain ⟨r, hr, hk, hid⟩ := ht
  rcases createDoes_rows h with ⟨f, hf, hrows⟩ | ⟨T', K', c, x, row, rfl, -, rfl⟩
  · exact ⟨f r, hrows ▸ mem_map_of_mem hr, (hf.keyed T K r).trans hk, (hf.id r).trans hid⟩
  · exact ⟨r, mem_append_left _ hr, hk, hid⟩

theorem keyedRows_step (h : CreateDoes g a db db' q) (hg : Consistent tenants (.before g)) :
    db'.keyedRows T K = db.keyedRows T K ∨
      (keyRegion tenants T K).inside g = true ∧ db'.keyedRows T K = db.keyedRows T K + 1 := by
  rcases createDoes_rows h with ⟨f, hf, hrows⟩ | ⟨T', K', c, x, row, rfl, -, rfl⟩
  · left
    have hcomp : StoredTransfer.keyed T K ∘ f = StoredTransfer.keyed T K := funext (hf.keyed T K)
    simp [CreateDB.keyedRows, hrows, countP_map, hcomp]
  · obtain ⟨-, htenant, hkey, -⟩ := hg
    have hcount : (db.insert row).keyedRows T K =
        db.keyedRows T K + if row.tenantID = T ∧ row.idempotencyKey = K then 1 else 0 := by
      simp [CreateDB.keyedRows, CreateDB.insert, StoredTransfer.keyed, countP_cons]
    rw [hcount, htenant, hkey]
    split
    · rename_i hTK
      right
      simp [keyRegion, CreateLabel.ofKey, CreateStep.beforeInsert, hTK]
    · exact .inl rfl

/-- The call is between its lookup and its insert. -/
def CreatePos.alone (T : UUID) (K : String) : CreatePos → Bool
  | .before g => CreateLabel.ofKey T K CreateStep.beforeInsert g
  | .returned _ => false

theorem knownAt_others {p : CreatePos} (h : CreateDoes g a db db' q)
    (hp : CreatePos.alone T K p = false ∨ db'.keyedRows T K = db.keyedRows T K) (hk : knownAt T K db p) :
    knownAt T K db' p := by
  cases p with
  | before g' =>
    cases g' with
    | other => trivial
    | call T' K' step =>
      intro hT hK
      have hk' := hk hT hK
      have hinside : step.beforeInsert = true → db'.keyedRows T K = db.keyedRows T K := by
        intro hstep
        refine hp.resolve_left ?_
        simp [CreatePos.alone, CreateLabel.ofKey, hT, hK, hstep]
      cases step with
      | lookup => trivial
      | increment _ _ t => exact known_mono h hk'
      | getVolume | sumVolume | seedVolume | persist => exact (hinside rfl).trans hk'
  | returned r =>
    cases r with
    | none => trivial
    | some r =>
      intro hT hK
      have hk' := hk hT hK
      cases hr : r.result with
      | error err => trivial
      | ok t => rw [hr] at hk'; exact known_mono h hk'

theorem knownAt_refused {T' : UUID} {K' : String} (h : Refused T' K' q) : knownAt T K db q := by
  obtain ⟨err, rfl⟩ := h
  exact fun _ _ => trivial

theorem knownAt_inserting {T' : UUID} {K' : String} {c : Option (ℤ × Decimal)} {x : Decimal}
    (h : Inserting T' K' c x q) (hrows : T' = T → K' = K → db.keyedRows T K = 0) : knownAt T K db q := by
  rcases h with h | ⟨row, rfl⟩
  · exact knownAt_refused h
  · exact hrows

/-- **What a call knows after its step**, if its lookup is answered and sees every row. -/
theorem knownAt_next (h : CreateDoes g a db db' q) (hasks : (keyRegion tenants T K).asks g a db)
    (hown : (keyRegion tenants T K).Own db (.before g)) : knownAt T K db' q := by
  obtain ⟨hcons, hk⟩ := hown
  have hdoes := h
  cases h with
  | @found T' K' a db r hr hrk =>
    rintro rfl rfl
    exact ⟨r, hr, hrk, rfl⟩
  | @missed T' K' a db q hnone hpos =>
    -- nothing recent was found, and there is nothing older
    have hrows : T' = T → K' = K → db.keyedRows T K = 0 := by
      rintro rfl rfl
      obtain ⟨hreply, hwindow⟩ := hasks rfl
      refine countP_eq_zero.2 fun r hr hrk => ?_
      have hmem : r ∈ db.recent T' K' := mem_filter.2 ⟨hr, by simp [hrk, hwindow r hr hrk]⟩
      rw [hnone hreply] at hmem
      cases hmem
    rcases hpos with ⟨x, rfl⟩ | ⟨x, hins⟩
    · exact hrows
    · exact knownAt_inserting hins hrows
  | counted _ hins => exact knownAt_inserting hins hk
  | uncounted | summed => exact hk
  | sumError href | insertError _ href => exact knownAt_refused href
  | seeded hins =>
    refine knownAt_inserting hins fun hT hK => ?_
    have hzero := hk hT hK
    split <;> exact hzero
  | @inserted T' K' a db x row c t q _ hid hq =>
    obtain ⟨-, htenant, hkey, -⟩ := hcons
    have hknown : T' = T → K' = K → (db.insert row).Known T K t := by
      rintro rfl rfl
      exact ⟨⟨row, micro db.clock⟩, by simp [CreateDB.insert], by simp [StoredTransfer.keyed, htenant, hkey], hid.symm⟩
    rcases hq with ⟨-, rfl⟩ | ⟨-, rfl⟩
    · exact hknown
    · exact hknown
  | incremented => exact fun hT hK => known_mono hdoes (hk hT hK)
  | ticked | advanced => trivial

theorem keyRegion_within (tenants : UUID → Option Tenant) (p : CreatePos) :
    (keyRegion tenants T K).within p = CreatePos.alone T K p := by
  cases p <;> rfl

theorem alone_before (h : CreatePos.alone T K (.before g) = true) :
    ∃ step, g = .call T K step ∧ step.beforeInsert = true := by
  cases g with
  | other => cases h
  | call T' K' step =>
    simp only [CreatePos.alone, CreateLabel.ofKey, Bool.and_eq_true, decide_eq_true_eq] at h
    obtain ⟨⟨rfl, rfl⟩, hstep⟩ := h
    exact ⟨step, rfl, hstep⟩

theorem alone_zero (hk : knownAt T K db (.before g)) (hg : CreatePos.alone T K (.before g) = true) :
    db.keyedRows T K = 0 := by
  obtain ⟨step, rfl, hstep⟩ := alone_before hg
  have hk' := hk rfl rfl
  cases step with
  | lookup | increment => cases hstep
  | _ => exact hk'

theorem alone_from (h : CreateDoes g a db db' q) (hq : CreatePos.alone T K q = true) :
    CreatePos.alone T K (.before g) = true ∨ g = .call T K .lookup := by
  have hrefused : ∀ {T' K'}, Refused T' K' q → False := by
    rintro T' K' ⟨err, rfl⟩
    cases hq
  have hinserting : ∀ {T' K' c x}, Inserting T' K' c x q → T' = T ∧ K' = K := by
    rintro T' K' c x (hr | ⟨row, rfl⟩)
    · exact (hrefused hr).elim
    · obtain ⟨step, hstep, -⟩ := alone_before hq
      cases hstep
      exact ⟨rfl, rfl⟩
  cases h with
  | found _ _ => cases hq
  | missed _ hpos =>
    right
    rcases hpos with ⟨x, rfl⟩ | ⟨x, hins⟩
    · obtain ⟨step, hstep, -⟩ := alone_before hq
      cases hstep
      rfl
    · obtain ⟨rfl, rfl⟩ := hinserting hins
      rfl
  | counted _ hins | seeded hins =>
    obtain ⟨rfl, rfl⟩ := hinserting hins
    exact .inl (by simp [CreatePos.alone, CreateLabel.ofKey, CreateStep.beforeInsert])
  | uncounted | summed => exact .inl hq
  | sumError href | insertError _ href => exact (hrefused href).elim
  | inserted _ _ hpos =>
    rcases hpos with ⟨-, rfl⟩ | ⟨-, rfl⟩
    · cases hq
    · obtain ⟨step, hstep, hbefore⟩ := alone_before hq
      cases hstep
      cases hbefore
  | incremented | ticked | advanced => cases hq

theorem key_outside (hg : (keyRegion tenants T K).inside g = false)
    (hasks : (keyRegion tenants T K).asks g a db) (hG : CreateStepSpec tenants g a db db' q)
    (halways : (keyRegion tenants T K).Always db) (hown : (keyRegion tenants T K).Own db (.before g)) :
    (keyRegion tenants T K).Always db' ∧ (keyRegion tenants T K).Own db' q ∧
      ∀ p, (keyRegion tenants T K).Own db p → (keyRegion tenants T K).Own db' p := by
  have hrows : db'.keyedRows T K = db.keyedRows T K := by
    rcases keyedRows_step (T := T) (K := K) hG.1 hown.1 with h | ⟨h, -⟩
    · exact h
    · rw [hg] at h; cases h
  refine ⟨?_, ⟨hG.2, knownAt_next hG.1 hasks hown⟩, fun p hp => ⟨hp.1, knownAt_others hG.1 (.inr hrows) hp.2⟩⟩
  have hle : db.keyedRows T K ≤ 1 := halways
  exact le_of_eq_of_le hrows hle

theorem keyRegion_sound (hK : K ≠ "") : (keyRegion tenants T K).Sound (CreateStepSpec tenants) (createThread tenants) where
  start c db _ _ := by
    obtain ⟨hcons, hpos⟩ := createThread_pos tenants c
    have hother : ∀ {T' step}, (createThread tenants c).pos = .before (.call T' "" step) →
        (keyRegion tenants T K).within (createThread tenants c).pos = false ∧
          (keyRegion tenants T K).Own db (createThread tenants c).pos := by
      intro T' step h
      rw [h] at hcons ⊢
      exact ⟨by simp [Region.within, keyRegion, CreateLabel.ofKey, hK.symm], hcons, fun _ h => absurd h.symm hK⟩
    rcases hpos with ⟨T', K', err, hpos⟩ | ⟨T', K', hpos⟩ | ⟨T', x, hpos | ⟨err, hpos⟩ | ⟨row, hpos⟩⟩ | hpos
    · rw [hpos] at hcons ⊢
      exact ⟨rfl, hcons, fun _ _ => trivial⟩
    · rw [hpos] at hcons ⊢
      exact ⟨by simp [Region.within, keyRegion, CreateLabel.ofKey, CreateStep.beforeInsert], hcons, fun _ _ => trivial⟩
    -- a call without a key is none of the key's
    · exact hother hpos
    · rw [hpos] at hcons ⊢
      exact ⟨rfl, hcons, fun _ _ => trivial⟩
    · exact hother hpos
    · rw [hpos] at hcons ⊢
      exact ⟨rfl, hcons, trivial⟩
  outside g a db db' q hg _ hasks hG halways hown := by
    obtain ⟨halways', hq, hothers⟩ := key_outside hg hasks hG halways hown
    exact ⟨halways', hq, fun _ => trivial, hothers⟩
  enter g a db db' q hg hq hasks hG halways hown := by
    rw [keyRegion_within] at hq
    have hlookup : g = .call T K .lookup := by
      rcases alone_from hG.1 hq with h | h
      · rw [← keyRegion_within tenants] at h
        rw [show (keyRegion tenants T K).within (.before g) = (keyRegion tenants T K).inside g from rfl, hg] at h
        cases h
      · exact h
    obtain ⟨halways', hown', hothers⟩ := key_outside hg hasks hG halways hown
    refine ⟨?_, fun _ => ⟨halways', hown', fun p _ => hothers p⟩⟩
    rw [hlookup]
    simp [keyRegion, CreateLabel.ofKey]
  within g a db db' q hg hasks hG halways hown := by
    have hzero : db.keyedRows T K = 0 := alone_zero hown.2 hg
    have hle : db'.keyedRows T K ≤ 1 := by
      rcases keyedRows_step (T := T) (K := K) hG.1 hown.1 with h | ⟨-, h⟩ <;> omega
    refine ⟨hle, ⟨hG.2, knownAt_next hG.1 hasks hown⟩, fun _ => trivial, fun p hp hp' => ⟨hp'.1, ?_⟩⟩
    exact knownAt_others hG.1 (.inl (keyRegion_within tenants p ▸ hp)) hp'.2
  drop _ _ _ _ _ _ := trivial

/-- **One key, one transfer.** In every run in which each lookup of the key succeeds, sees
all rows of the key, and is made while no other call is between its lookup and its insert,
the key has at most one row, and every successful call returns that transfer. -/
theorem key_created_once (tenants : UUID → Option Tenant) (T : UUID) (K : String) (hK : K ≠ "") (db₀ : CreateDB)
    (h₀ : db₀.keyedRows T K = 0) (as : List (Action CreateThread CreateAnswer))
    (has : Meets (createThread tenants) (keyRegion tenants T K).ok (System.init db₀) as) :
    (run (System.act (createThread tenants)) (System.init db₀) as).state.keyedRows T K ≤ 1 ∧
      ∀ r, .returned (some r) ∈ (run (System.act (createThread tenants)) (System.init db₀) as).positions →
        r.tenantID = T → r.key = K → ∀ t, r.result = .ok t →
        (run (System.act (createThread tenants)) (System.init db₀) as).state.Known T K t := by
  have hzero : (keyRegion tenants T K).Always db₀ := by
    show db₀.keyedRows T K ≤ 1
    omega
  have hinv := region_run (keyRegion_sound hK) (createThread_follows tenants) hzero trivial has
  refine ⟨hinv.always, fun r hr hT hK' t ht => ?_⟩
  have hown := (hinv.own _ hr).2 hT hK'
  rw [ht] at hown
  exact hown

instance (g : CreateLabel) (a : CreateAnswer) (db : CreateDB) : Decidable ((keyRegion tenants T K).asks g a db) := by
  unfold keyRegion
  infer_instance

instance : DecidablePred (keyRegion tenants T K).starts := fun _ => .isTrue trivial

instance : DecidablePred (keyRegion tenants T K).mayDrop := fun _ => .isTrue trivial

def freeTenants (_ : UUID) : Option Tenant := some ⟨true, 0, 0, 0⟩

def keyedCall (rowID : UUID) : CreateThread :=
  .create (sampleEnv rowID) 1 { sampleRequest with idempotencyKey := "k" }

def oneByOne : List (Action CreateThread CreateAnswer) :=
  [.start (keyedCall 7), .step 0 {}, .step 0 {}, .start (.tick 60000000000), .step 1 {},
    .start (keyedCall 8), .step 2 {}]

theorem key_created_once_oneByOne :
    ("k" ≠ "") ∧ ((CreateDB.empty 0).keyedRows 1 "k" = 0) ∧
    (run (System.act (createThread freeTenants)) (System.init (CreateDB.empty 0)) oneByOne).state.keyedRows 1 "k" ≤ 1 :=
  ⟨by decide, by decide,
    (key_created_once freeTenants 1 "k" (by decide) (CreateDB.empty 0) (by decide) oneByOne (by decide +kernel)).1⟩

def lookupsFirst : List (Action CreateThread CreateAnswer) :=
  [.start (keyedCall 7), .start (keyedCall 8), .step 0 {}, .step 1 {}, .step 0 {},
    .start (.tick 1000), .step 2 {}, .step 1 {}]

/-- **Two rows for one key**: both calls succeed, and the unique index lets both rows in. -/
theorem key_created_twice :
    (run (System.act (createThread freeTenants)) (System.init (CreateDB.empty 0)) lookupsFirst).state.keyedRows 1 "k" = 2 := by
  decide +kernel

end Settla.Core
