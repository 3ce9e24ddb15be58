import Settla.Proof.Creating

/-!
# The daily limit of a tenant

The limit is checked against a volume that is read before the insert and counted after it, so the check
is only worth something while no other call of the tenant is in between.
-/

namespace Settla.Core

open Lib Lib.Threads List

variable (tenants : UUID → Option Tenant) (T : UUID)

def CreateDB.volume (db : CreateDB) (d : ℤ) : Decimal :=
  ((db.rows.filter (StoredTransfer.onDay T d)).map (·.transfer.stableAmount)).sum

def CreateDB.counted (db : CreateDB) (d : ℤ) : Decimal := (db.counter T d).getD 0

/-- The steps from reading the table to counting. -/
def CreateStep.uncounted : CreateStep → Bool
  | .sumVolume _ _ | .seedVolume _ _ _ | .persist _ _ _ | .increment _ _ _ => true
  | .lookup | .getVolume _ => false

def CreateLabel.ofTenant (kind : CreateStep → Bool) : CreateLabel → Bool
  | .call T' _ step => T' = T && kind step
  | .other => false

def CreateDB.Until (db : CreateDB) (d : ℤ) : Prop := d ≤ db.today ∧ ∀ d', d < d' → db.volume T d' = 0

/-- What a call of the tenant knows about the day whose volume it read. -/
def readAt (db : CreateDB) : CreatePos → Prop
  | .before (.call T' _ step) => T' = T →
    match step with
    | .sumVolume d _ => db.Until T d ∧ db.volume T d ≤ 0
    | .seedVolume d v _ => db.Until T d ∧ db.volume T d ≤ db.counted T d ∧ db.volume T d ≤ v ∧ 0 ≤ v
    | .persist (some (d, v)) _ _ => db.Until T d ∧ db.volume T d ≤ db.counted T d ∧ db.volume T d ≤ v ∧ 0 ≤ v
    | .increment d x _ => db.Until T d ∧ db.volume T d ≤ db.counted T d + x
    | _ => True
  | _ => True

structure Volumes (db : CreateDB) : Prop where
  limit : ∀ d, db.volume T d ≤ dailyLimit tenants T
  future : ∀ d, db.today < d → db.volume T d = 0
  rows_nonneg : ∀ r ∈ db.rows, r.transfer.tenantID = T → 0 ≤ r.transfer.stableAmount
  counted_nonneg : ∀ d, 0 ≤ db.counted T d

/-- The counter works and does not round down, an insert that was made is answered, and the amount has no more
decimals than the table keeps. -/
def asksVolume (a : CreateAnswer) (db : CreateDB) : CreateStep → Prop
  | .lookup | .sumVolume _ _ => True
  | .getVolume _ => a.reply = .ok
  | .seedVolume _ v _ => a.reply.applied = true ∧ v ≤ a.float v
  | .increment _ x _ =>
    a.reply.applied = true ∧ db.counted T db.today + x ≤ a.float (db.counted T db.today + x)
  | .persist _ x _ => a.reply ≠ .lost ∧ numeric8 x ≤ x

/-- From reading the volume to counting its own amount a call is to be alone with its tenant, and
not to crash. -/
def volumeRegion : Region CreateDB CreateAnswer CreateLabel (Option CreateReturn) CreateThread where
  inside := CreateLabel.ofTenant T CreateStep.uncounted
  entry
    | .call T' _ (.getVolume _) => T' = T
    | _ => false
  starts _ := True
  asks g a db :=
    match g with
    | .call T' _ step => T' = T → asksVolume T a db step
    | .other => True
  mayDrop
    | .call _ _ (.increment _ _ _) => False
    | _ => True
  Always := Volumes tenants T
  Free db := db.volume T db.today ≤ db.counted T db.today
  Own db q := Consistent tenants q ∧ readAt T db q

variable {tenants T}

/-! ## Volumes, counters and days along a step -/

variable {a : CreateAnswer} {db db' : CreateDB} {p q : CreatePos} {v x : Decimal} {K : String} {row : Transfer}
  {d : ℤ} {float : Decimal → Decimal}

theorem day_mono {t t' : Time} (h : t ≤ t') : day t ≤ day t' := Int.ediv_le_ediv (by decide) h

theorem day_micro (t : Time) : day (micro t) = day t := by
  unfold day micro
  rw [show (24 * 60 * minute : Time) = 1000 * 86400000000 by decide, Int.mul_comm (t / 1000) 1000,
    Int.mul_ediv_mul_of_pos _ _ (by decide), ← Int.ediv_ediv_of_nonneg (by decide)]

theorem volume_map {rows : List StoredTransfer} {f : StoredTransfer → StoredTransfer} (hf : SameRow f)
    (hrows : rows = db.rows.map f) (c : UUID → ℤ → Option Decimal) (t : Time) (d : ℤ) :
    CreateDB.volume T ⟨rows, c, t⟩ d = db.volume T d := by
  subst hrows
  have hday : StoredTransfer.onDay T d ∘ f = StoredTransfer.onDay T d := funext (hf.onDay T d)
  have hamount : (fun r : StoredTransfer => r.transfer.stableAmount) ∘ f = fun r => r.transfer.stableAmount :=
    funext hf.stableAmount
  simp only [CreateDB.volume, filter_map, hday, map_map, hamount]

theorem volume_insert (db : CreateDB) (row : Transfer) (d : ℤ) :
    (db.insert row).volume T d =
      db.volume T d + if row.tenantID = T ∧ db.today = d then row.stableAmount else 0 := by
  have hday : day (micro db.clock) = db.today := day_micro _
  by_cases h : row.tenantID = T ∧ db.today = d
  · simp [CreateDB.volume, CreateDB.insert, StoredTransfer.onDay, filter_append, hday, h]
  · have hno : StoredTransfer.onDay T d ⟨row, micro db.clock⟩ = false := by
      simpa [StoredTransfer.onDay, hday] using h
    simp [CreateDB.volume, CreateDB.insert, filter_append, hno, h]

theorem counted_setCounter (db : CreateDB) (T' : UUID) (d' : ℤ) (v : Option Decimal) (d : ℤ) :
    (db.setCounter T' d' v).counted T d = if T' = T ∧ d' = d then v.getD 0 else db.counted T d := by
  unfold CreateDB.counted CreateDB.setCounter
  by_cases hT : T' = T
  · subst hT
    by_cases hd : d' = d
    · subst hd; simp
    · simp [Function.update_of_ne (Ne.symm hd), hd]
  · simp [Function.update_of_ne (Ne.symm hT), hT]

/-- The tenant's numbers are what they were; only time may have passed. -/
structure Untouched (T : UUID) (db db' : CreateDB) : Prop where
  volume : ∀ d, db'.volume T d = db.volume T d
  counted : ∀ d, db'.counted T d = db.counted T d
  rows : ∀ r ∈ db'.rows, r.transfer.tenantID = T →
    ∃ r' ∈ db.rows, r'.transfer.tenantID = T ∧ r'.transfer.stableAmount = r.transfer.stableAmount
  clock : db.clock ≤ db'.clock

theorem untouched_refl (db : CreateDB) : Untouched T db db :=
  ⟨fun _ => rfl, fun _ => rfl, fun r hr hT => ⟨r, hr, hT, rfl⟩, le_refl _⟩

theorem untouched_setCounter (db : CreateDB) {T' : UUID} (hT : T' ≠ T) (d : ℤ) (v : Option Decimal) :
    Untouched T db (db.setCounter T' d v) where
  volume _ := rfl
  counted d' := by simp [counted_setCounter, hT]
  rows r hr hT := ⟨r, hr, hT, rfl⟩
  clock := le_refl _

theorem untouched_insert (db : CreateDB) (hT : row.tenantID ≠ T) : Untouched T db (db.insert row) where
  volume d := by simp [volume_insert, hT]
  counted _ := rfl
  rows r hr hT' := by
    rcases mem_append.1 hr with hr | hr
    · exact ⟨r, hr, hT', rfl⟩
    · rw [mem_singleton.1 hr] at hT'
      exact absurd hT' hT
  clock := le_refl _

theorem step_untouched {g : CreateLabel} (h : CreateDoes g a db db' q) (hcons : Consistent tenants (.before g))
    (hg : CreateLabel.ofTenant T CreateStep.uncounted g = false) : Untouched T db db' := by
  have hother : ∀ {T' K step}, g = .call T' K step → step.uncounted = true → T' ≠ T := by
    rintro T' K step rfl hstep rfl
    simp [CreateLabel.ofTenant, hstep] at hg
  cases h with
  | seeded _ | incremented =>
    split
    · exact untouched_setCounter db (hother rfl rfl) _ _
    · exact untouched_refl db
  | inserted _ _ _ =>
    obtain ⟨-, htenant, -⟩ := hcons
    exact untouched_insert db (htenant.symm ▸ hother rfl rfl)
  | insertError _ _ =>
    obtain ⟨-, htenant, -⟩ := hcons
    split
    · exact untouched_insert db (htenant.symm ▸ hother rfl rfl)
    · exact untouched_refl db
  | ticked n => exact ⟨fun _ => rfl, fun _ => rfl, fun r hr hT => ⟨r, hr, hT, rfl⟩, by simp⟩
  | advanced i status =>
    have hf := sameRow_advance i status
    refine ⟨fun d => volume_map hf rfl _ _ d, fun _ => rfl, fun r hr hT => ?_, le_refl _⟩
    obtain ⟨r', hr', rfl⟩ := mem_map.1 hr
    exact ⟨r', hr', (hf.tenantID r').symm.trans hT, (hf.stableAmount r').symm⟩
  | _ => exact untouched_refl db

theorem Untouched.volumes (h : Untouched T db db') (hv : Volumes tenants T db) : Volumes tenants T db' where
  limit d := h.volume d ▸ hv.limit d
  future d hd := by
    rw [h.volume]
    exact hv.future d (lt_of_le_of_lt (day_mono h.clock) hd)
  rows_nonneg r hr hT := by
    obtain ⟨r', hr', hT', heq⟩ := h.rows r hr hT
    exact heq ▸ hv.rows_nonneg r' hr' hT'
  counted_nonneg d := h.counted d ▸ hv.counted_nonneg d

theorem Untouched.until (h : Untouched T db db') (hd : db.Until T d) : db'.Until T d :=
  ⟨hd.1.trans (day_mono h.clock), fun d' hd' => (h.volume d').trans (hd.2 d' hd')⟩

theorem Untouched.readAt (h : Untouched T db db') (hp : readAt T db p) : readAt T db' p := by
  cases p with
  | returned r => trivial
  | before g =>
    cases g with
    | other => trivial
    | call T' K step =>
      intro hT
      have hp' := hp hT
      cases step with
      | lookup | getVolume => trivial
      | sumVolume d x => exact ⟨h.until hp'.1, h.volume d ▸ hp'.2⟩
      | seedVolume d v x =>
        obtain ⟨hd, hc, hv⟩ := hp'
        exact ⟨h.until hd, by rw [h.volume, h.counted]; exact hc, h.volume d ▸ hv.1, hv.2⟩
      | persist c x row =>
        cases c with
        | none => trivial
        | some dv =>
          obtain ⟨hd, hc, hv⟩ := hp'
          exact ⟨h.until hd, by rw [h.volume, h.counted]; exact hc, h.volume dv.1 ▸ hv.1, hv.2⟩
      | increment d x t => exact ⟨h.until hp'.1, by rw [h.volume, h.counted]; exact hp'.2⟩

/-! ## The steps inside -/

theorem seed_counted (hc : db.volume T d ≤ db.counted T d) (hle : db.volume T d ≤ v) (hfloat : v ≤ float v) :
    (db.seedDailyVolume T d float v).volume T d ≤ (db.seedDailyVolume T d float v).counted T d := by
  show db.volume T d ≤ _
  unfold CreateDB.seedDailyVolume
  rw [counted_setCounter, if_pos ⟨rfl, rfl⟩]
  cases hcount : db.counter T d with
  | none => simpa using hle.trans hfloat
  | some w => simpa [CreateDB.counted, hcount] using hc

section Inside

variable (hv : Volumes tenants T db)
include hv

theorem free_of_until (hd : db.Until T d) (hc : db.volume T d ≤ db.counted T d) :
    db.volume T db.today ≤ db.counted T db.today := by
  rcases eq_or_lt_of_le hd.1 with rfl | hlt
  · exact hc
  · rw [hd.2 _ hlt]
    exact hv.counted_nonneg _

theorem until_today : db.Until T db.today := ⟨le_refl _, hv.future⟩

theorem sumDailyVolume_nonneg (d : ℤ) : 0 ≤ db.sumDailyVolume T d := by
  refine sum_nonneg fun x hx => ?_
  obtain ⟨r, hr, rfl⟩ := mem_map.1 hx
  obtain ⟨hrow, hday⟩ := mem_filter.1 hr
  refine hv.rows_nonneg r hrow ?_
  simp only [StoredTransfer.onDay, Bool.and_eq_true, decide_eq_true_eq] at hday
  exact hday.1.1.1

theorem seed_volumes (hnn : 0 ≤ v) (hfloat : v ≤ float v) :
    Volumes tenants T (db.seedDailyVolume T d float v) where
  limit := hv.limit
  future := hv.future
  rows_nonneg := hv.rows_nonneg
  counted_nonneg d' := by
    unfold CreateDB.seedDailyVolume
    rw [counted_setCounter]
    split
    · cases hc : db.counter T d with
      | none => simpa using hnn.trans hfloat
      | some w => simpa [CreateDB.counted, hc] using hv.counted_nonneg d
    · exact hv.counted_nonneg d'

theorem insert_until : (db.insert row).Until T db.today := by
  refine ⟨le_refl _, fun d' hd' => ?_⟩
  rw [volume_insert, if_neg fun h => absurd h.2 (ne_of_lt hd')]
  simpa using hv.future d' hd'

theorem insert_volumes (hd : db.Until T d) (hread : db.volume T d ≤ v) (hnn : 0 ≤ v)
    (hx : v + x ≤ dailyLimit tenants T) (hrow : row.stableAmount ≤ x) (hpos : 0 ≤ row.stableAmount) :
    Volumes tenants T (db.insert row) where
  limit d' := by
    rw [volume_insert]
    split
    · rename_i h
      obtain ⟨-, rfl⟩ := h
      rcases eq_or_lt_of_le hd.1 with rfl | hlt
      · linarith
      · rw [hd.2 _ hlt]; linarith
    · simpa using hv.limit d'
  future := (insert_until hv).2
  rows_nonneg := forall_mem_snoc hv.rows_nonneg fun _ => hpos
  counted_nonneg := hv.counted_nonneg

theorem incr_volumes (hx : 0 ≤ x) (hfloat : db.counted T d + x ≤ float (db.counted T d + x)) :
    Volumes tenants T (db.incrDailyVolume T d float x) where
  limit := hv.limit
  future := hv.future
  rows_nonneg := hv.rows_nonneg
  counted_nonneg d' := by
    unfold CreateDB.incrDailyVolume
    rw [counted_setCounter]
    split
    · exact (add_nonneg (hv.counted_nonneg d) hx).trans hfloat
    · exact hv.counted_nonneg d'

theorem incr_free (hx : 0 ≤ x) (hd : db.Until T d) (hc : db.volume T d ≤ db.counted T d + x)
    (hfloat : db.counted T db.today + x ≤ float (db.counted T db.today + x)) :
    (db.incrDailyVolume T db.today float x).volume T db.today ≤
      (db.incrDailyVolume T db.today float x).counted T db.today := by
  unfold CreateDB.incrDailyVolume
  rw [counted_setCounter, if_pos ⟨rfl, rfl⟩]
  refine le_trans ?_ hfloat
  show db.volume T db.today ≤ db.counted T db.today + x
  rcases eq_or_lt_of_le hd.1 with rfl | hlt
  · exact hc
  · rw [hd.2 _ hlt]
    have := hv.counted_nonneg db.today
    linarith

end Inside

theorem readAt_outside (hp : (volumeRegion tenants T).within p = false) : readAt T db p := by
  cases p with
  | returned r => trivial
  | before g =>
    cases g with
    | other => trivial
    | call T' K step =>
      rintro rfl
      cases step with
      | lookup | getVolume => trivial
      | _ => simp [Region.within, volumeRegion, CreateLabel.ofTenant, CreateStep.uncounted] at hp

/-- The volumes in order, what the call knows next, and today counted if the call is done. -/
def Leaves (tenants : UUID → Option Tenant) (T : UUID) (db' : CreateDB) (q : CreatePos) : Prop :=
  Volumes tenants T db' ∧ readAt T db' q ∧
    ((volumeRegion tenants T).within q = false → db'.volume T db'.today ≤ db'.counted T db'.today)

theorem leaves_refused (href : Refused T K q) (hv : Volumes tenants T db) (hd : db.Until T d)
    (hc : db.volume T d ≤ db.counted T d) : Leaves tenants T db q := by
  obtain ⟨err, rfl⟩ := href
  exact ⟨hv, trivial, fun _ => free_of_until hv hd hc⟩

theorem leaves_inserting (hins : Inserting T K (some (d, v)) x q) (hv : Volumes tenants T db)
    (hd : db.Until T d) (hc : db.volume T d ≤ db.counted T d) (hle : db.volume T d ≤ v) (hnn : 0 ≤ v) :
    Leaves tenants T db q := by
  rcases hins with href | ⟨row, rfl⟩
  · exact leaves_refused href hv hd hc
  · refine ⟨hv, fun _ => ⟨hd, hc, hle, hnn⟩, fun hout => ?_⟩
    simp [Region.within, volumeRegion, CreateLabel.ofTenant, CreateStep.uncounted] at hout

theorem leaves_step (hL : dailyLimit tenants T ≠ 0) {step : CreateStep}
    (h : CreateDoes (.call T K step) a db db' q) (hstep : step.uncounted = true) (hasks : asksVolume T a db step)
    (hv : Volumes tenants T db) (hcons : Consistent tenants (.before (.call T K step)))
    (hread : readAt T db (.before (.call T K step))) : Leaves tenants T db' q := by
  have hr := hread rfl
  have hinside : ∀ {step}, step.uncounted = true →
      (volumeRegion tenants T).within (.before (.call T K step)) = false → False := by
    intro step hs hout
    simp [Region.within, volumeRegion, CreateLabel.ofTenant, hs] at hout
  cases h with
  | found | missed | counted | uncounted => cases hstep
  | @summed _ _ a db d x =>
    obtain ⟨hd, hzero⟩ := hr
    have hsum := sumDailyVolume_nonneg hv d
    have hc : db.volume T d ≤ db.counted T d := hzero.trans (hv.counted_nonneg d)
    exact ⟨hv, fun _ => ⟨hd, hc, hzero.trans hsum, hsum⟩, fun hout => (hinside rfl hout).elim⟩
  | @sumError _ _ a db d x q href =>
    obtain ⟨hd, hzero⟩ := hr
    exact leaves_refused href hv hd (hzero.trans (hv.counted_nonneg d))
  | seeded hins =>
    obtain ⟨hd, hc, hle, hnn⟩ := hr
    obtain ⟨happlied, hfloat⟩ := hasks
    rw [if_pos happlied]
    exact leaves_inserting hins (seed_volumes hv hnn hfloat) hd (seed_counted hc hle hfloat) hle hnn
  | @inserted _ _ a db x row c t q _ _ hq =>
    obtain ⟨hx, -, -, hamount, hchecked⟩ := hcons
    cases c with
    | none => exact absurd hchecked hL
    | some dv =>
      obtain ⟨d, v⟩ := dv
      obtain ⟨hd, hc, hle, hnn⟩ := hr
      -- the row stores no more than the amount that was checked
      have hrow : row.stableAmount ≤ x := hamount ▸ hasks.2
      have hpos : 0 ≤ row.stableAmount := hamount ▸ roundPlaces_nonneg 8 hx.le
      rcases hq with ⟨hnone, -⟩ | ⟨-, rfl⟩
      · cases hnone
      · rw [day_micro]
        refine ⟨insert_volumes hv hd hle hnn hchecked.2 hrow hpos, fun _ => ?_, fun hout => (hinside rfl hout).elim⟩
        have hfree := free_of_until hv hd hc
        refine ⟨insert_until hv, ?_⟩
        show (db.insert row).volume T db.today ≤ db.counted T db.today + x
        rw [volume_insert]
        split <;> linarith
  | @insertError _ _ a db x row c q hno href =>
    -- an insert that was made is answered, so this one was not made
    have hskip : ¬ (a.reply.applied && !db.conflicts row) = true := by
      intro happ
      obtain ⟨happlied, hfree⟩ := Bool.and_eq_true_iff.1 happ
      rcases hno with hno | hconf
      · cases hreply : a.reply with
        | ok => exact hno hreply
        | error => rw [hreply] at happlied; cases happlied
        | lost => exact hasks.1 hreply
      · rw [hconf] at hfree; cases hfree
    rw [if_neg hskip]
    cases c with
    | none => exact absurd hcons.2.2.2.2 hL
    | some dv =>
      obtain ⟨hd, hc, -⟩ := hr
      exact leaves_refused href hv hd hc
  | incremented =>
    obtain ⟨hd, hc⟩ := hr
    obtain ⟨happlied, hfloat⟩ := hasks
    rw [if_pos happlied]
    exact ⟨incr_volumes hv hcons.2.le hfloat, trivial, fun _ => incr_free hv hcons.2.le hd hc hfloat⟩

theorem within_before (h : (volumeRegion tenants T).within p = true) :
    ∃ K step, p = .before (.call T K step) ∧ step.uncounted = true := by
  cases p with
  | returned r => cases h
  | before g =>
    cases g with
    | other => cases h
    | call T' K step =>
      simp only [Region.within, volumeRegion, CreateLabel.ofTenant, Bool.and_eq_true, decide_eq_true_eq] at h
      obtain ⟨rfl, hstep⟩ := h
      exact ⟨K, step, rfl, hstep⟩

theorem volume_enter (hL : dailyLimit tenants T ≠ 0) {g : CreateLabel} (h : CreateDoes g a db db' q)
    (hcons : Consistent tenants q) (hg : CreateLabel.ofTenant T CreateStep.uncounted g = false)
    (hq : (volumeRegion tenants T).within q = true) :
    ∃ K x, g = .call T K (.getVolume x) ∧ db' = db ∧
      ((a.reply = .ok → db.counted T db.today = 0) ∧ q = .before (.call T K (.sumVolume db.today x)) ∨
        Inserting T K (some (db.today, db.counted T db.today)) x q) := by
  obtain ⟨K, step, rfl, hstep⟩ := within_before hq
  have hinserting : ∀ {T' K' c x}, Inserting T' K' c x (.before (.call T K step)) → T' = T ∧ K' = K := by
    rintro T' K' c x (⟨err, h⟩ | ⟨row, h⟩)
    · cases h
    · cases h; exact ⟨rfl, rfl⟩
  have hinside : ∀ {K' step'}, step'.uncounted = true → g = .call T K' step' → False := by
    rintro K' step' hs rfl
    simp [CreateLabel.ofTenant, hs] at hg
  cases h with
  | missed _ hpos =>
    rcases hpos with ⟨x, h⟩ | ⟨x, hins⟩
    · cases h; cases hstep
    · obtain ⟨rfl, rfl⟩ := hinserting hins
      rcases hins with ⟨err, h⟩ | ⟨row, h⟩ <;> cases h
      exact absurd hcons.2.2.2.2 hL
  | counted hval hins =>
    obtain ⟨rfl, rfl⟩ := hinserting hins
    subst hval
    exact ⟨_, _, rfl, rfl, .inr hins⟩
  | uncounted hzero => exact ⟨_, _, rfl, rfl, .inl ⟨hzero, rfl⟩⟩
  | summed => exact (hinside rfl rfl).elim
  | sumError href | insertError _ href => obtain ⟨err, h⟩ := href; cases h
  | seeded hins =>
    obtain ⟨rfl, rfl⟩ := hinserting hins
    exact (hinside rfl rfl).elim
  | inserted _ _ hpos =>
    rcases hpos with ⟨-, h⟩ | ⟨-, h⟩
    · cases h
    · cases h; exact (hinside rfl rfl).elim

theorem volumeRegion_sound (hL : dailyLimit tenants T ≠ 0) :
    (volumeRegion tenants T).Sound (CreateStepSpec tenants) (createThread tenants) where
  start c db _ _ := by
    obtain ⟨hcons, hpos⟩ := createThread_pos tenants c
    have hout : (volumeRegion tenants T).within (createThread tenants c).pos = false := by
      by_contra hin
      obtain ⟨K, step, hp, hstep⟩ := within_before (Bool.not_eq_false _ ▸ hin)
      rw [hp] at hpos hcons
      rcases hpos with ⟨T', K', err, h⟩ | ⟨T', K', h⟩ | ⟨T', x, h | ⟨err, h⟩ | ⟨row, h⟩⟩ | h
      · cases h
      · cases h; cases hstep
      · cases h; cases hstep
      · cases h
      · cases h; exact hL hcons.2.2.2.2
      · cases h
    exact ⟨hout, hcons, readAt_outside hout⟩
  outside g a db db' q hg hq _ hG hv hown := by
    have hun := step_untouched hG.1 hown.1 hg
    refine ⟨hun.volumes hv, ⟨hG.2, readAt_outside hq⟩, fun hfree => ?_, fun p hp => ⟨hp.1, hun.readAt hp.2⟩⟩
    exact free_of_until (hun.volumes hv) (hun.until (until_today hv))
      (by rw [hun.volume, hun.counted]; exact hfree)
  enter g a db db' q hg hq hasks hG hv hown := by
    obtain ⟨K, x, rfl, rfl, hnext⟩ := volume_enter hL hG.1 hG.2 hg hq
    refine ⟨by simp [volumeRegion], fun hfree => ?_⟩
    have hd := until_today hv
    have hleaves : Leaves tenants T db' q := by
      rcases hnext with ⟨hzero, rfl⟩ | hins
      · refine ⟨hv, fun _ => ⟨hd, ?_⟩, fun hout => by rw [hout] at hq; cases hq⟩
        exact hzero (hasks rfl) ▸ hfree
      · exact leaves_inserting hins hv hd hfree hfree (hv.counted_nonneg _)
    exact ⟨hv, ⟨hG.2, hleaves.2.1⟩, fun p hp hp' => ⟨hp'.1, readAt_outside hp⟩⟩
  within g a db db' q hg hasks hG hv hown := by
    obtain ⟨K, step, hp, hstep⟩ := within_before (p := .before g) hg
    cases hp
    obtain ⟨hv', hread, hfree⟩ := leaves_step hL hG.1 hstep (hasks rfl) hv hown.1 hown.2
    exact ⟨hv', ⟨hG.2, hread⟩, hfree, fun p hp hp' => ⟨hp'.1, readAt_outside hp⟩⟩
  drop g db hg hdrop hv hown := by
    obtain ⟨K, step, hp, hstep⟩ := within_before (p := .before g) hg
    cases hp
    have hr := hown.2 rfl
    cases step with
    | lookup | getVolume => cases hstep
    | sumVolume d x => exact free_of_until hv hr.1 (hr.2.trans (hv.counted_nonneg d))
    | seedVolume d v x => exact free_of_until hv hr.1 hr.2.1
    | persist c x row =>
      cases c with
      | none => exact absurd hown.1.2.2.2.2 hL
      | some dv => exact free_of_until hv hr.1 hr.2.1
    | increment d x t => exact hdrop.elim

/-- **The daily limit holds** for a tenant with a positive limit, on every day of every run in which
its volume is read only while no other call of it is between reading and counting, the counter
works and does not round down, every insert is answered and counted, and no amount has more decimals than its
column. -/
theorem daily_limit_kept (tenants : UUID → Option Tenant) (T : UUID) (hL : 0 < dailyLimit tenants T) (clock : Time)
    (as : List (Action CreateThread CreateAnswer))
    (has : Meets (createThread tenants) (volumeRegion tenants T).ok (System.init (CreateDB.empty clock)) as) (d : ℤ) :
    (run (System.act (createThread tenants)) (System.init (CreateDB.empty clock)) as).state.volume T d ≤
      dailyLimit tenants T := by
  have hempty : Volumes tenants T (CreateDB.empty clock) :=
    ⟨fun _ => hL.le, fun _ _ => rfl, fun _ h => (not_mem_nil h).elim, fun _ => le_refl _⟩
  exact (region_run (volumeRegion_sound hL.ne') (createThread_follows tenants) hempty (le_refl _) has).always.limit d

instance (a : CreateAnswer) (db : CreateDB) : DecidablePred (asksVolume T a db) := fun g => by
  cases g <;> unfold asksVolume <;> infer_instance

instance : ∀ g a db, Decidable ((volumeRegion tenants T).asks g a db)
  | .call T' _ step, a, db => inferInstanceAs (Decidable (T' = T → asksVolume T a db step))
  | .other, _, _ => .isTrue trivial

instance : DecidablePred (volumeRegion tenants T).starts := fun _ => .isTrue trivial

instance : DecidablePred (volumeRegion tenants T).mayDrop
  | .call _ _ (.increment _ _ _) => .isFalse id
  | .call _ _ .lookup | .call _ _ (.getVolume _) | .call _ _ (.sumVolume _ _) | .call _ _ (.seedVolume _ _ _)
  | .call _ _ (.persist _ _ _) | .other => .isTrue trivial

def limitedTenants (_ : UUID) : Option Tenant := some ⟨true, 2000, 0, 0⟩

def limitedCall (rowID : UUID) : CreateThread := .create (sampleEnv rowID) 1 sampleRequest

def readAndCount : List (Action CreateThread CreateAnswer) :=
  [.start (limitedCall 7), .step 0 {}, .step 0 {}, .step 0 {}, .step 0 {}, .step 0 {},
    .start (limitedCall 8), .step 1 {}]

theorem daily_limit_kept_twice :
    0 < dailyLimit limitedTenants 1 ∧
    (run (System.act (createThread limitedTenants)) (System.init (CreateDB.empty 0)) readAndCount).state.volume 1 0 ≤
      dailyLimit limitedTenants 1 :=
  ⟨by decide +kernel, daily_limit_kept limitedTenants 1 (by decide +kernel) 0 readAndCount (by decide +kernel) 0⟩

def readsFirst : List (Action CreateThread CreateAnswer) :=
  [.start (limitedCall 7), .start (limitedCall 8),
    .step 0 {}, .step 0 {}, .step 0 {}, .step 1 {}, .step 1 {}, .step 1 {},
    .step 0 {}, .step 1 {}, .step 0 {}, .step 1 {}]

/-- **Two calls break the limit** of 2000: 2500 are created in one day. -/
theorem daily_limit_exceeded :
    dailyLimit limitedTenants 1 <
      (run (System.act (createThread limitedTenants)) (System.init (CreateDB.empty 0)) readsFirst).state.volume 1 0 := by
  decide +kernel

end Settla.Core
