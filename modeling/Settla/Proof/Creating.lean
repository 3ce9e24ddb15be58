import Settla.Core.Creating
import Settla.Proof.CreateTransfer

/-!
# Calls of `CreateTransfer` at the same time

`CreateDoes` says what each step of a call, and of what else happens at the table, can do;
`createThread_follows` shows that the programs do nothing else.
-/

namespace Settla.Core

open Lib Lib.Threads

abbrev CreatePos := Pos CreateLabel (Option CreateReturn)

variable (tenants : UUID → Option Tenant)

def dailyLimit (T : UUID) : Decimal := ((tenants T).map (·.dailyLimitUSD)).getD 0

def Refused (T : UUID) (K : String) (q : CreatePos) : Prop := ∃ err, q = .returned (some ⟨T, K, .error err⟩)

/-- The call goes on to insert its row, or it failed. -/
def Inserting (T : UUID) (K : String) (checked : Option (ℤ × Decimal)) (x : Decimal) (q : CreatePos) : Prop :=
  Refused T K q ∨ ∃ row, q = .before (.call T K (.persist checked x row))

inductive CreateDoes : CreateLabel → CreateAnswer → CreateDB → CreateDB → CreatePos → Prop
  | found {T K a db r} : r ∈ db.rows → r.keyed T K →
      CreateDoes (.call T K .lookup) a db db (.returned (some ⟨T, K, .ok r.transfer⟩))
  | missed {T K a db q} : (a.reply = .ok → db.recent T K = []) →
      (∃ x, q = .before (.call T K (.getVolume x))) ∨ (∃ x, Inserting T K none x q) →
      CreateDoes (.call T K .lookup) a db db q
  | counted {T K a db x v q} : (db.counter T db.today).getD 0 = v → Inserting T K (some (db.today, v)) x q →
      CreateDoes (.call T K (.getVolume x)) a db db q
  | uncounted {T K a db x} : (a.reply = .ok → (db.counter T db.today).getD 0 = 0) →
      CreateDoes (.call T K (.getVolume x)) a db db (.before (.call T K (.sumVolume db.today x)))
  | summed {T K a db d x} :
      CreateDoes (.call T K (.sumVolume d x)) a db db (.before (.call T K (.seedVolume d (db.sumDailyVolume T d) x)))
  | sumError {T K a db d x q} : Refused T K q → CreateDoes (.call T K (.sumVolume d x)) a db db q
  | seeded {T K a db d v x q} : Inserting T K (some (d, v)) x q →
      CreateDoes (.call T K (.seedVolume d v x)) a db (if a.reply.applied then db.seedDailyVolume T d a.float v else db) q
  | inserted {T K a db x row c t q} : a.reply = .ok → t.id = row.id →
      (c = none ∧ q = .returned (some ⟨T, K, .ok t⟩)) ∨
        ((∃ dv, c = some dv) ∧ q = .before (.call T K (.increment (day (micro db.clock)) x t))) →
      CreateDoes (.call T K (.persist c x row)) a db (db.insert row) q
  | insertError {T K a db x row c q} : a.reply ≠ .ok ∨ db.conflicts row → Refused T K q →
      CreateDoes (.call T K (.persist c x row)) a db
        (if a.reply.applied && !db.conflicts row then db.insert row else db) q
  | incremented {T K a db d x t} :
      CreateDoes (.call T K (.increment d x t)) a db
        (if a.reply.applied then db.incrDailyVolume T db.today a.float x else db) (.returned (some ⟨T, K, .ok t⟩))
  | ticked {a db} (n : ℕ) : CreateDoes .other a db { db with clock := db.clock + n } (.returned none)
  | advanced {a db} (id : UUID) (status : TransferStatus) :
      CreateDoes .other a db { db with
        rows := db.rows.map fun r => if r.transfer.id = id then { r with transfer := r.transfer.advance status } else r }
        (.returned none)

/-- Amounts are positive, the row is that of the call, and a limit was checked exactly if there is
one. -/
def Consistent : CreatePos → Prop
  | .before (.call T K step) =>
    match step with
    | .lookup => True
    | .getVolume x | .sumVolume _ x | .seedVolume _ _ x | .increment _ x _ => dailyLimit tenants T ≠ 0 ∧ 0 < x
    | .persist checked x row =>
      0 < x ∧ row.tenantID = T ∧ row.idempotencyKey = K ∧ row.stableAmount = numeric8 x ∧
        match checked with
        | none => dailyLimit tenants T = 0
        | some (_, v) => dailyLimit tenants T ≠ 0 ∧ v + x ≤ dailyLimit tenants T
  | _ => True

/-- What the steps of the threads do, on positions whose data fit together. -/
def CreateStepSpec (g : CreateLabel) (a : CreateAnswer) (db db' : CreateDB)
    (q : CreatePos) : Prop :=
  CreateDoes g a db db' q ∧ Consistent tenants q

section Call

variable {tenants : UUID → Option Tenant} {e : CreateEnv} {T : UUID} {tenant : Tenant} {req : CreateTransferRequest}
  {q : Quote}

theorem dailyLimit_eq (h : tenants T = some tenant) : dailyLimit tenants T = tenant.dailyLimitUSD := by
  simp [dailyLimit, h]

theorem persisting_spec (e : CreateEnv) (req : CreateTransferRequest) (htenant : tenants T = some tenant)
    (hq : 0 < q.stableAmount) (checked : Option (ℤ × Decimal))
    (hc : match checked with
      | none => tenant.dailyLimitUSD = 0
      | some (_, v) => tenant.dailyLimitUSD ≠ 0 ∧ v + q.stableAmount ≤ tenant.dailyLimitUSD) :
    (persisting e T tenant req q checked).Follows (CreateStepSpec tenants) ∧
      Inserting T req.idempotencyKey checked q.stableAmount (persisting e T tenant req q checked).pos ∧
      Consistent tenants (persisting e T tenant req q checked).pos := by
  unfold persisting
  dsimp only
  split
  · exact ⟨trivial, .inl ⟨_, rfl⟩, trivial⟩
  split
  · exact ⟨trivial, .inl ⟨_, rfl⟩, trivial⟩
  rename_i row hrow
  have hrow' := storeRow_eq hrow
  have hlimit := dailyLimit_eq htenant
  refine ⟨?_, .inr ⟨row, rfl⟩, hq, ?_, ?_, ?_, ?_⟩
  · intro a db
    dsimp only
    by_cases hok : a.reply = .ok ∧ db.conflicts row = false
    · have happlied : (a.reply.applied && !db.conflicts row) = true := by rw [hok.1, hok.2]; rfl
      have hid : (asStored (newTransfer e T req q) row).id = row.id := rfl
      rw [if_pos hok, if_pos happlied]
      cases checked with
      | none =>
        rw [if_neg (not_not.2 hc)]
        exact ⟨⟨.inserted hok.1 hid (.inl ⟨rfl, rfl⟩), trivial⟩, trivial⟩
      | some dv =>
        rw [if_pos hc.1]
        exact ⟨⟨.inserted hok.1 hid (.inr ⟨⟨dv, rfl⟩, rfl⟩), hlimit ▸ hc.1, hq⟩,
          fun _ _ => ⟨⟨.incremented, trivial⟩, trivial⟩⟩
    · have hno' : a.reply ≠ .ok ∨ db.conflicts row := by
        by_cases hr : a.reply = .ok
        · exact .inr (by simpa [hr] using hok)
        · exact .inl hr
      rw [if_neg hok]
      exact ⟨⟨.insertError hno' ⟨_, rfl⟩, trivial⟩, trivial⟩
  · rw [hrow']; rfl
  · rw [hrow']; rfl
  · rw [hrow']; rfl
  · cases checked with
    | none => exact hlimit.trans hc
    | some dv => exact ⟨hlimit ▸ hc.1, hlimit ▸ hc.2⟩

theorem checkingVolume_spec (e : CreateEnv) (req : CreateTransferRequest) (htenant : tenants T = some tenant)
    (hq : 0 < q.stableAmount)
    (hlim : tenant.dailyLimitUSD ≠ 0) (d : ℤ) (v : Decimal) :
    (checkingVolume e T tenant req q d v).Follows (CreateStepSpec tenants) ∧
      Inserting T req.idempotencyKey (some (d, v)) q.stableAmount (checkingVolume e T tenant req q d v).pos ∧
      Consistent tenants (checkingVolume e T tenant req q d v).pos := by
  unfold checkingVolume
  split
  · exact ⟨trivial, .inl ⟨_, rfl⟩, trivial⟩
  · rename_i h
    exact persisting_spec e req htenant hq (some (d, v)) ⟨hlim, not_lt.1 h⟩

theorem readingVolume_follows (htenant : tenants T = some tenant) (hq : 0 < q.stableAmount)
    (hlim : tenant.dailyLimitUSD ≠ 0) : (readingVolume e T tenant req q).Follows (CreateStepSpec tenants) := by
  have hlim' : dailyLimit tenants T ≠ 0 := dailyLimit_eq htenant ▸ hlim
  intro a db
  dsimp only
  split
  · rename_i hv
    obtain ⟨hfol, hpos, hcons⟩ := checkingVolume_spec e req htenant hq hlim db.today
      (counterVolume T a db)
    refine ⟨⟨.counted ?_ hpos, hcons⟩, hfol⟩
    -- an unavailable counter says zero, so it was available
    unfold counterVolume at hv ⊢
    split at hv
    · rename_i hr; rw [if_pos hr]
    · exact absurd rfl hv
  · rename_i hv
    refine ⟨⟨.uncounted fun hr => ?_, hlim', hq⟩, ?_⟩
    · simpa [counterVolume, hr] using hv
    · intro a db'
      dsimp only
      split
      · refine ⟨⟨.summed, hlim', hq⟩, ?_⟩
        intro a db''
        obtain ⟨hfol, hpos, hcons⟩ := checkingVolume_spec e req htenant hq hlim db.today
          (db'.sumDailyVolume T db.today)
        exact ⟨⟨.seeded hpos, hcons⟩, hfol⟩
      · exact ⟨⟨.sumError ⟨_, rfl⟩, trivial⟩, trivial⟩

theorem checkNew_pos (h : checkNew e T tenant req = .ok q) : 0 < q.stableAmount := by
  simp only [checkNew, bind_eq_ok, pure_eq, Except.ok.injEq] at h
  obtain ⟨_, -, q', -, _, hquote, _, -, rfl⟩ := h
  exact quote_validate (checkQuote_validate hquote)

theorem creatingRow_spec (e : CreateEnv) (req : CreateTransferRequest) (htenant : tenants T = some tenant) :
    (creatingRow e T tenant req).Follows (CreateStepSpec tenants) ∧
      ((∃ x, (creatingRow e T tenant req).pos = .before (.call T req.idempotencyKey (.getVolume x))) ∨
        ∃ x, Inserting T req.idempotencyKey none x (creatingRow e T tenant req).pos) ∧
      Consistent tenants (creatingRow e T tenant req).pos := by
  unfold creatingRow
  split
  · exact ⟨trivial, .inr ⟨0, .inl ⟨_, rfl⟩⟩, trivial⟩
  rename_i q hnew
  have hq := checkNew_pos hnew
  split
  · rename_i hlim
    refine ⟨readingVolume_follows htenant hq hlim, .inl ⟨_, rfl⟩, ?_, hq⟩
    exact dailyLimit_eq htenant ▸ hlim
  · rename_i hlim
    obtain ⟨hfol, hpos, hcons⟩ := persisting_spec e req htenant hq none (not_not.1 hlim)
    exact ⟨hfol, .inr ⟨_, hpos⟩, hcons⟩

theorem getTransferByIdempotencyKey_some {db : CreateDB} {K : String} {n : ℕ} {t : Transfer}
    (h : db.getTransferByIdempotencyKey T K n = some t) : ∃ r ∈ db.rows, r.keyed T K ∧ r.transfer = t := by
  obtain ⟨r, hr, rfl⟩ := Option.map_eq_some_iff.1 h
  have hmem : r ∈ db.recent T K := by
    rcases Option.or_eq_some_iff.1 hr with hr | ⟨-, hr⟩
    · exact List.mem_of_getElem? hr
    · exact List.mem_of_mem_head? hr
  obtain ⟨hrow, hk⟩ := List.mem_filter.1 hmem
  exact ⟨r, hrow, (Bool.and_eq_true_iff.1 hk).1, rfl⟩

theorem creating_follows : (creating { e with getTenant := tenants } T req).Follows (CreateStepSpec tenants) := by
  unfold creating
  split
  · trivial
  rename_i tenant htenant
  obtain ⟨hfol, hpos, hcons⟩ :=
    creatingRow_spec { e with getTenant := tenants } req htenant
  split
  · trivial
  split
  · intro a db
    dsimp only
    split
    · rename_i t ht
      split at ht
      · obtain ⟨r, hr, hk, rfl⟩ := getTransferByIdempotencyKey_some ht
        exact ⟨⟨.found hr hk, trivial⟩, trivial⟩
      · cases ht
    · rename_i hnone
      refine ⟨⟨.missed (fun hr => ?_) hpos, hcons⟩, hfol⟩
      rw [if_pos hr] at hnone
      have hor := Option.map_eq_none_iff.1 hnone
      exact List.head?_eq_none_iff.1 (Option.or_eq_none_iff.1 hor).2
  · exact hfol

end Call

/-- **The threads do what `CreateDoes` says.** -/
theorem createThread_follows (c : CreateThread) :
    (createThread tenants c).Follows (CreateStepSpec tenants) := by
  cases c with
  | create e T req => exact creating_follows
  | tick n => exact fun _ _ => ⟨⟨.ticked n, trivial⟩, trivial⟩
  | advance id status => exact fun _ _ => ⟨⟨.advanced id status, trivial⟩, trivial⟩

theorem createThread_pos (c : CreateThread) :
    Consistent tenants (createThread tenants c).pos ∧
      ((∃ T K, Refused T K (createThread tenants c).pos) ∨
        (∃ T K, (createThread tenants c).pos = .before (.call T K .lookup)) ∨
        (∃ T x, (createThread tenants c).pos = .before (.call T "" (.getVolume x)) ∨
          Inserting T "" none x (createThread tenants c).pos) ∨
        (createThread tenants c).pos = .before .other) := by
  cases c with
  | tick | advance => exact ⟨trivial, .inr (.inr (.inr rfl))⟩
  | create e T req =>
    unfold createThread creating
    dsimp only
    split
    · exact ⟨trivial, .inl ⟨T, _, _, rfl⟩⟩
    rename_i tenant htenant
    split
    · exact ⟨trivial, .inl ⟨T, _, _, rfl⟩⟩
    split
    · exact ⟨trivial, .inr (.inl ⟨T, _, rfl⟩)⟩
    · rename_i hkey
      obtain ⟨-, hpos, hcons⟩ :=
        creatingRow_spec { e with getTenant := tenants } req htenant
      rw [not_not.1 hkey] at hpos
      refine ⟨hcons, .inr (.inr (.inl ?_))⟩
      rcases hpos with ⟨x, hx⟩ | ⟨x, hx⟩
      · exact ⟨T, x, .inl hx⟩
      · exact ⟨T, x, .inr hx⟩

/-! ## What a step does to the rows -/

/-- A change of rows that keeps what identifies and counts them. -/
structure SameRow (f : StoredTransfer → StoredTransfer) : Prop where
  createdAt : ∀ r, (f r).createdAt = r.createdAt
  id : ∀ r, (f r).transfer.id = r.transfer.id
  tenantID : ∀ r, (f r).transfer.tenantID = r.transfer.tenantID
  key : ∀ r, (f r).transfer.idempotencyKey = r.transfer.idempotencyKey
  stableAmount : ∀ r, (f r).transfer.stableAmount = r.transfer.stableAmount

theorem sameRow_advance (i : UUID) (status : TransferStatus) :
    SameRow fun r => if r.transfer.id = i then { r with transfer := r.transfer.advance status } else r := by
  constructor <;> intro r <;> split <;> rfl

variable {f : StoredTransfer → StoredTransfer}

theorem SameRow.keyed (h : SameRow f) (T : UUID) (K : String)
    (r : StoredTransfer) : (f r).keyed T K = r.keyed T K := by
  simp [StoredTransfer.keyed, h.tenantID, h.key]

theorem SameRow.onDay (h : SameRow f) (T : UUID) (d : ℤ) (r : StoredTransfer) : (f r).onDay T d = r.onDay T d := by
  simp [StoredTransfer.onDay, h.tenantID, h.createdAt]

theorem createDoes_rows {g : CreateLabel} {a : CreateAnswer} {db db' : CreateDB} {q : CreatePos}
    (h : CreateDoes g a db db' q) :
    (∃ f, SameRow f ∧ db'.rows = db.rows.map f) ∨
      ∃ T K c x row, g = .call T K (.persist c x row) ∧ a.reply.applied ∧ db' = db.insert row := by
  have hsame : ∃ f, SameRow f ∧ db.rows = db.rows.map f :=
    ⟨id, ⟨fun _ => rfl, fun _ => rfl, fun _ => rfl, fun _ => rfl, fun _ => rfl⟩, by simp⟩
  cases h with
  | seeded | incremented => split <;> exact .inl hsame
  | advanced i status => exact .inl ⟨_, sameRow_advance i status, rfl⟩
  | inserted hr _ _ => exact .inr ⟨_, _, _, _, _, rfl, by rw [hr]; rfl, rfl⟩
  | insertError _ _ =>
    split
    · rename_i happ
      exact .inr ⟨_, _, _, _, _, rfl, (Bool.and_eq_true_iff.1 happ).1, rfl⟩
    · exact .inl hsame
  | _ => exact .inl hsame

end Settla.Core
