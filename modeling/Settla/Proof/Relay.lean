import Mathlib.Data.List.Sort
import Settla.Node.Relay

/-!
# What the relay publishes

A poll publishes the entries of a tenant out of order only if the publish of an entry fails and that of a
later one in the same batch succeeds. An entry that cannot be published is fetched again and again; while
there are fewer of these than the batch has places, every entry is fetched.
-/

namespace Settla.Node.Relay

open Lib Lib.Keyed List

variable {p : Poll} {s : Outbox} {a e r : OutboxRow} {b : ℕ} {es : List OutboxRow}

/-! ## What a poll does -/

theorem eligible_iff : r.eligible = true ↔ r.published = false ∧ r.retryCount < r.maxRetries := by
  simp [OutboxRow.eligible]

theorem marked_eq (p : Poll) (r : OutboxRow) :
    p.marked r = r ∨ marshals r.createdAt = true ∧ (p.mark r.key).applied = true ∧
      (p.publish r.key = .ok ∧ p.marked r = { r with published := true } ∨
        p.publish r.key ≠ .ok ∧ p.marked r = { r with retryCount := r.retryCount + 1 }) := by
  unfold Poll.marked
  split_ifs with hmark hpub
  · exact .inr ⟨hmark.1, hmark.2, .inl ⟨hpub, rfl⟩⟩
  · exact .inr ⟨hmark.1, hmark.2, .inr ⟨hpub, rfl⟩⟩
  · exact .inl rfl

/-- The row after entries with these keys were published. -/
def Poll.after (p : Poll) (keys : List (UUID × Time)) (r : OutboxRow) : OutboxRow :=
  if r.key ∈ keys then p.marked r else r

theorem run_rows (p : Poll) (s : Outbox) (hes : (es.map OutboxRow.key).Nodup) :
    (run (publishEntry p) s es).rows = s.rows.map (p.after (es.map OutboxRow.key)) := by
  induction es generalizing s with
  | nil => exact (List.map_id'' (fun r => if_neg not_mem_nil) _).symm
  | cons e es ih =>
    obtain ⟨hnew, hes⟩ := nodup_cons.1 hes
    rw [run_cons, ih _ hes]
    simp only [publishEntry, map_map]
    refine map_congr_left fun r _ => ?_
    simp only [Function.comp, Poll.after, map_cons, mem_cons]
    by_cases hr : r.key = e.key
    · rw [if_pos hr, marked_key, hr, if_neg hnew, if_pos (.inl rfl)]
    · simp only [hr, if_false, false_or]

theorem mem_run_log (p : Poll) (s : Outbox) (es : List OutboxRow) (k : UUID × Time) :
    k ∈ (run (publishEntry p) s es).log ↔
      k ∈ s.log ∨ ∃ e ∈ es, e.key = k ∧ marshals e.createdAt = true ∧ (p.publish k).applied = true := by
  induction es generalizing s with
  | nil => simp
  | cons e es ih =>
    rw [run_cons, ih]
    simp only [publishEntry, exists_mem_cons_iff, ← or_assoc]
    refine or_congr_left ?_
    split_ifs with hpub
    · rw [mem_append, mem_singleton]
      refine or_congr_right ⟨?_, fun h => h.1.symm⟩
      rintro rfl
      exact ⟨rfl, hpub.1, hpub.2⟩
    · refine ⟨.inl, fun h => h.resolve_right ?_⟩
      rintro ⟨rfl, hm, hp⟩
      exact hpub ⟨hm, hp⟩

theorem mem_fetch_rows (h : e ∈ p.fetch b s) : e ∈ s.rows ∧ e.eligible = true := by
  have hread := (p.sort.toReading.mem).1 (mem_of_mem_take h)
  exact mem_filter.1 hread

theorem mem_batch : e ∈ p.batch b s ↔ e ∈ p.fetch b s ∧ e.id ≠ UUID.nil := by
  unfold Poll.batch
  rw [Reading.mem, mem_filter, decide_eq_true_eq]

theorem batch_keys (p : Poll) (b : ℕ) (s : Outbox) : ((p.batch b s).map OutboxRow.key).Nodup := by
  have hrows : ((s.rows.filter OutboxRow.eligible).map OutboxRow.key).Nodup := s.keys.sublist (filter_sublist.map _)
  have hread := ((p.sort.perm _).map OutboxRow.key).nodup_iff.2 hrows
  have hfetch := hread.sublist ((take_sublist b _).map _)
  exact ((p.schedule.perm _).map OutboxRow.key).nodup_iff.2 (hfetch.sublist (filter_sublist.map _))

/-- What a poll fetches is older than what it leaves. -/
theorem fetch_oldest (ha : a ∈ s.rows) (helig : a.eligible = true) :
    a ∈ p.fetch b s ∨ (p.fetch b s).length = b ∧ ∀ x ∈ p.fetch b s, x.createdAt ≤ a.createdAt := by
  have hmem : a ∈ p.sort.read (s.rows.filter OutboxRow.eligible) :=
    (p.sort.toReading.mem).2 (mem_filter.2 ⟨ha, helig⟩)
  have hsorted := p.sort.sorted (s.rows.filter OutboxRow.eligible)
  unfold Poll.fetch
  rw [← take_append_drop b (p.sort.read _)] at hmem hsorted
  rcases mem_append.1 hmem with htake | hdrop
  · exact .inl htake
  · refine .inr ⟨?_, fun x hx => not_lt.1 ((pairwise_append.1 hsorted).2.2 x hx a hdrop)⟩
    have := length_pos_of_mem hdrop
    rw [length_drop] at this
    rw [length_take]
    omega

/-! ## Order -/

/-- Earlier entries of the tenant that have retries left are published. -/
def Ordered (s : Outbox) (e : OutboxRow) : Prop :=
  ∀ a ∈ s.rows, a.tenantID = e.tenantID → a.createdAt < e.createdAt → a.retryCount < a.maxRetries →
    a.published = true ∨ a.key ∈ s.log

/-- An entry that is published for the first time is published in order. -/
def InTurn (p : Poll) (s : Outbox) (e : OutboxRow) : Prop :=
  marshals e.createdAt = true → (p.publish e.key).applied = true → e.key ∉ s.log → Ordered s e

/-- The poll publishes the entry. -/
def Poll.Sends (p : Poll) (e : OutboxRow) : Prop :=
  e.id ≠ UUID.nil ∧ marshals e.createdAt = true ∧ (p.publish e.key).applied = true

/-- The publish fails and was the last retry. -/
def Poll.GivesUp (p : Poll) (e : OutboxRow) : Prop :=
  e.id ≠ UUID.nil ∧ marshals e.createdAt = true ∧ p.publish e.key ≠ .ok ∧ (p.mark e.key).applied = true ∧
    e.maxRetries ≤ e.retryCount + 1

/-- An entry that is first published has the earlier ones of its tenant published, too, or out of
retries. -/
def Smooth (b : ℕ) (s : Outbox) (p : Poll) : Prop :=
  ∀ a ∈ p.fetch b s, ∀ e ∈ p.fetch b s, a.tenantID = e.tenantID → a.createdAt < e.createdAt → p.Sends e →
    e.key ∉ s.log → a.key ∈ s.log ∨ p.Sends a ∨ p.GivesUp a

theorem mem_before {es₁ es₂ : List OutboxRow} (hbatch : p.batch b s = es₁ ++ e :: es₂) (ha : a ∈ p.batch b s)
    (htenant : a.tenantID = e.tenantID) (hlt : a.createdAt < e.createdAt) : a ∈ es₁ := by
  have hturn := p.schedule.inTurn ((p.fetch b s).filter (·.id ≠ UUID.nil)) e.tenantID
  have hsorted : (p.fetch b s).Pairwise fun x y => ¬ y.createdAt < x.createdAt :=
    (p.sort.sorted _).sublist (take_sublist _ _)
  have horder := (hsorted.filter (·.id ≠ UUID.nil)).filter (·.tenantID = e.tenantID)
  change (p.batch b s).filter _ = _ at hturn
  rw [← hturn, hbatch, filter_append, filter_cons_of_pos (by simp)] at horder
  rw [hbatch] at ha
  rcases mem_append.1 ha with ha | ha
  · exact ha
  · rcases mem_cons.1 ha with rfl | ha
    · exact absurd hlt (lt_irrefl _)
    · have hlater := (pairwise_append.1 horder).2.1
      exact absurd hlt ((pairwise_cons.1 hlater).1 a (mem_filter.2 ⟨ha, by simpa using htenant⟩))

/-- What becomes of an earlier entry of the batch. -/
theorem settled_iff (helig : a.eligible = true) {keys : List (UUID × Time)} (hin : a.key ∈ keys ↔ a.id ≠ UUID.nil) :
    ((p.after keys a).retryCount < (p.after keys a).maxRetries →
        (p.after keys a).published = true ∨ a.key ∈ s.log ∨ p.Sends a) ↔
      a.key ∈ s.log ∨ p.Sends a ∨ p.GivesUp a := by
  rw [eligible_iff] at helig
  unfold Poll.after
  by_cases hid : a.id = UUID.nil
  · rw [if_neg fun h => hin.1 h hid]
    simp [helig, hid, Poll.GivesUp]
  · rw [if_pos (hin.2 hid)]
    unfold Poll.marked
    split_ifs with hmark hpub
    · have hsends : p.Sends a := ⟨hid, hmark.1, by rw [hpub]; rfl⟩
      simp [hsends]
    · by_cases hlast : a.maxRetries ≤ a.retryCount + 1
      · have hgive : p.GivesUp a := ⟨hid, hmark.1, hpub, hmark.2, hlast⟩
        simp [hgive, hlast]
      · have hno : ¬ p.GivesUp a := fun h => hlast h.2.2.2.2
        simp [helig.1, hno, not_le.1 hlast]
    · have hno : ¬ p.GivesUp a := fun h => hmark ⟨h.2.1, h.2.2.2.1⟩
      simp [helig, hno]

theorem after_same (p : Poll) (keys : List (UUID × Time)) (a : OutboxRow) :
    (p.after keys a).tenantID = a.tenantID ∧ (p.after keys a).key = a.key ∧
      (a.eligible = false → (p.after keys a).eligible = false) := by
  unfold Poll.after
  split_ifs
  · rcases marked_eq p a with heq | ⟨-, -, ⟨-, heq⟩ | ⟨-, heq⟩⟩
    · rw [heq]; exact ⟨rfl, rfl, id⟩
    · rw [heq]; exact ⟨rfl, rfl, fun _ => rfl⟩
    · rw [heq]
      refine ⟨rfl, rfl, fun h => ?_⟩
      simp only [OutboxRow.eligible, Bool.and_eq_false_iff, decide_eq_false_iff_not, not_lt] at h ⊢
      exact h.imp_right fun h => h.trans (Nat.le_succ _)
  · exact ⟨rfl, rfl, id⟩

theorem after_created (p : Poll) (keys : List (UUID × Time)) (r : OutboxRow) :
    (p.after keys r).createdAt = r.createdAt := (Prod.mk.inj (after_same p keys r).2.1).2

section Before

variable {b : ℕ} {s : Outbox} {p : Poll} {es₁ es₂ : List OutboxRow} {e a : OutboxRow}

/-- An older entry of the tenant comes before, if it can be published at all. -/
theorem mem_keys_before (hbatch : p.batch b s = es₁ ++ e :: es₂) (ha : a ∈ p.fetch b s)
    (htenant : a.tenantID = e.tenantID) (hlt : a.createdAt < e.createdAt) :
    a.key ∈ es₁.map OutboxRow.key ↔ a.id ≠ UUID.nil := by
  constructor
  · intro h
    obtain ⟨x, hx, hkeyeq⟩ := mem_map.1 h
    have hx : x ∈ p.batch b s := hbatch ▸ mem_append_left _ hx
    rw [← (Prod.mk.inj hkeyeq).1]
    exact (mem_batch.1 hx).2
  · intro hid
    exact mem_map_of_mem (mem_before hbatch (mem_batch.2 ⟨ha, hid⟩) htenant hlt)

theorem mem_log_before (hin : a.key ∈ es₁.map OutboxRow.key ↔ a.id ≠ UUID.nil) :
    a.key ∈ (run (publishEntry p) s es₁).log ↔ a.key ∈ s.log ∨ p.Sends a := by
  rw [mem_run_log]
  refine or_congr_right ⟨?_, ?_⟩
  · rintro ⟨x, hx, hkeyeq, hmar, hpub⟩
    exact ⟨hin.1 (hkeyeq ▸ mem_map_of_mem hx), (Prod.mk.inj hkeyeq).2 ▸ hmar, hpub⟩
  · rintro ⟨hid, hmar, hpub⟩
    obtain ⟨x, hx, hkeyeq⟩ := mem_map.1 (hin.2 hid)
    exact ⟨x, hx, hkeyeq, (Prod.mk.inj hkeyeq).2 ▸ hmar, hpub⟩

end Before

theorem batch_in_turn_iff (b : ℕ) (s : Outbox) (p : Poll) :
    Along (publishEntry p) (InTurn p) s (p.batch b s) ↔ Smooth b s p := by
  have hkey := batch_keys p b s
  rw [along_iff_split]
  constructor
  · intro h a ha e he htenant hlt hsends hfresh
    obtain ⟨es₁, es₂, hbatch⟩ := append_of_mem (mem_batch.2 ⟨he, hsends.1⟩)
    rw [hbatch, map_append] at hkey
    have hfresh₁ : e.key ∉ (run (publishEntry p) s es₁).log := by
      rw [mem_run_log]
      rintro (hold | ⟨x, hx, hkeyeq, -⟩)
      · exact hfresh hold
      · exact (nodup_append.1 hkey).2.2 _ (mem_map_of_mem hx) _ (by simp) hkeyeq
    have hbefore := mem_keys_before hbatch ha htenant hlt
    have hordered := h es₁ e es₂ hbatch hsends.2.1 hsends.2.2 hfresh₁ (p.after (es₁.map OutboxRow.key) a)
    rw [run_rows p s hkey.of_append_left, (after_same p _ a).1, (after_same p _ a).2.1, after_created,
      mem_log_before hbefore] at hordered
    have hmem := mem_fetch_rows ha
    exact (settled_iff hmem.2 hbefore).1 (hordered (mem_map_of_mem hmem.1) htenant hlt)
  · intro h es₁ e es₂ hbatch hmar hpub hfresh a' ha' htenant hlt hleft
    rw [hbatch, map_append] at hkey
    rw [run_rows p s hkey.of_append_left] at ha'
    obtain ⟨a, ha, rfl⟩ := mem_map.1 ha'
    obtain ⟨hten, hkeyeq, hinelig⟩ := after_same p (es₁.map OutboxRow.key) a
    rw [hten] at htenant
    rw [after_created] at hlt
    rw [hkeyeq]
    have he := mem_batch.1 (hbatch ▸ mem_append_right es₁ mem_cons_self : e ∈ p.batch b s)
    cases helig : a.eligible with
    | false =>
      have hno := hinelig helig
      simp only [OutboxRow.eligible, hleft, decide_true, Bool.and_true, Bool.not_eq_false'] at hno
      exact .inl hno
    | true =>
      have hfetch : a ∈ p.fetch b s := (fetch_oldest ha helig).resolve_right fun hold =>
        absurd hlt (not_lt.2 (hold.2 e he.1))
      have hbefore := mem_keys_before hbatch hfetch htenant hlt
      have hold : e.key ∉ s.log := fun hmem => hfresh ((mem_run_log ..).2 (.inl hmem))
      have hsmooth := h a hfetch e he.1 htenant hlt ⟨he.2, hmar, hpub⟩ hold
      rw [mem_log_before hbefore]
      exact (settled_iff helig hbefore).2 hsmooth hleft

/-- **The relay publishes the entries of a tenant in order exactly if every poll is smooth.** -/
theorem published_in_order_iff (batchSize : ℕ) (s : Outbox) (polls : List Poll) :
    Along (poll batchSize) (fun s p => Along (publishEntry p) (InTurn p) s (p.batch batchSize s)) s polls ↔
      Along (poll batchSize) (Smooth batchSize) s polls :=
  along_congr (P := fun _ => True) (fun s p _ => batch_in_turn_iff batchSize s p) (fun _ _ _ _ => trivial) trivial polls

def rowOf (id : UUID) (createdAt : Time) : OutboxRow :=
  ⟨id, "transfer", 7, 1, "treasury.reserve", .null, true, false, 0, 5, createdAt⟩

def byCreation : Sorting OutboxRow fun a b => a.createdAt < b.createdAt where
  read l := l.insertionSort fun a b => a.createdAt ≤ b.createdAt
  perm l := List.perm_insertionSort _ l
  sorted l := by
    have : Std.Total fun a b : OutboxRow => a.createdAt ≤ b.createdAt := ⟨fun a b => le_total _ _⟩
    have : IsTrans OutboxRow fun a b => a.createdAt ≤ b.createdAt := ⟨fun _ _ _ => le_trans⟩
    exact (List.pairwise_insertionSort (fun a b : OutboxRow => a.createdAt ≤ b.createdAt) l).imp not_lt.2

def pollFailing (failing : Option UUID) : Poll where
  sort := byCreation
  schedule := ⟨Reading.inserted, fun _ _ => rfl⟩
  publish k := if some k.1 = failing then .error else .ok
  mark _ := .ok

def twoRows (id : UUID) : Outbox := ⟨[rowOf id 1, rowOf 6 2], by simp [rowOf, OutboxRow.key], []⟩

/-- **Out of order**: the publish of the first entry fails, and the second one follows. -/
theorem second_published_first :
    (poll 10 (twoRows 5) (pollFailing (some 5))).log = [(6, 2)] ∧
      ¬ Along (poll 10) (fun s p => Along (publishEntry p) (InTurn p) s (p.batch 10 s)) (twoRows 5) [pollFailing (some 5)] := by
  refine ⟨by decide +kernel, fun h => ?_⟩
  have hturn := (along_iff_split ..).1 h.1 [rowOf 5 1] (rowOf 6 2) [] rfl
  have hordered := hturn (by decide) (by decide) (by decide +kernel) _ mem_cons_self
  exact absurd (hordered (by decide) (by decide) (by decide)) (by decide +kernel)

/-! ## Progress -/

/-- The row has an ID, and its message can be marshalled. -/
def OutboxRow.Sound (r : OutboxRow) : Prop := r.id ≠ UUID.nil ∧ marshals r.createdAt = true

instance (r : OutboxRow) : Decidable r.Sound := inferInstanceAs (Decidable (_ ∧ _))

/-- Another row, no younger than `e`, that is fetched in every poll and stays as it is. -/
def stuck (e r : OutboxRow) : Bool := r.eligible ∧ r.createdAt ≤ e.createdAt ∧ ¬ r.Sound ∧ r.key ≠ e.key

/-- The publishes that are left to a row. -/
def OutboxRow.left (r : OutboxRow) : ℕ := if r.published then 0 else r.maxRetries - r.retryCount

/-- The publishes that are left to a sound row no younger than `e`. -/
def toGo (e r : OutboxRow) : ℕ := if r.createdAt ≤ e.createdAt ∧ r.Sound then r.left else 0

def Poll.StoreOK (p : Poll) : Prop := ∀ k, p.mark k = .ok

theorem after_batch (hr : r ∈ s.rows) :
    r.key ∈ (p.batch b s).map OutboxRow.key ↔ r ∈ p.fetch b s ∧ r.id ≠ UUID.nil := by
  rw [← mem_batch, mem_map]
  constructor
  · rintro ⟨x, hx, hkey⟩
    exact inj_on_of_nodup_map s.keys (mem_fetch_rows (mem_batch.1 hx).1).1 hr hkey ▸ hx
  · exact fun h => ⟨r, h, rfl⟩

theorem poll_rows (b : ℕ) (s : Outbox) (p : Poll) :
    (poll b s p).rows = s.rows.map (p.after ((p.batch b s).map OutboxRow.key)) := run_rows p s (batch_keys p b s)

theorem marked_sound (hp : p.StoreOK) (hr : r.Sound) :
    p.marked r = { r with published := true } ∨ p.marked r = { r with retryCount := r.retryCount + 1 } := by
  unfold Poll.marked
  rw [if_pos ⟨hr.2, by rw [hp]; rfl⟩]
  split_ifs
  · exact .inl rfl
  · exact .inr rfl

/-- A fetched row goes on exactly if it is sound. -/
theorem fetched_iff (hp : p.StoreOK) (he : e ∈ p.fetch b s) :
    (∃ r ∈ (poll b s p).rows, r.key = e.key ∧ (r.published = true ∨ e.retryCount < r.retryCount)) ↔ e.Sound := by
  obtain ⟨hrow, helig⟩ := mem_fetch_rows he
  rw [eligible_iff] at helig
  rw [poll_rows]
  constructor
  · rintro ⟨r', hr', hkey, hdone⟩
    obtain ⟨r, hr, rfl⟩ := mem_map.1 hr'
    rw [(after_same p _ r).2.1] at hkey
    obtain rfl := inj_on_of_nodup_map s.keys hr hrow hkey
    unfold Poll.after at hdone
    split_ifs at hdone with hin
    · rcases marked_eq p r with heq | ⟨hmar, -⟩
      · rw [heq, helig.1] at hdone
        simp at hdone
      · exact ⟨((after_batch hrow).1 hin).2, hmar⟩
    · rw [helig.1] at hdone
      simp at hdone
  · intro hsound
    refine ⟨_, mem_map_of_mem hrow, (after_same p _ e).2.1, ?_⟩
    rw [Poll.after, if_pos ((after_batch hrow).2 ⟨he, hsound.1⟩)]
    rcases marked_sound hp hsound with heq | heq
    · rw [heq]; exact .inl rfl
    · rw [heq]; exact .inr (Nat.lt_succ_self _)

theorem after_sound (p : Poll) (keys : List (UUID × Time)) (r : OutboxRow) : (p.after keys r).Sound ↔ r.Sound := by
  have hid : (p.after keys r).id = r.id := (Prod.mk.inj (after_same p keys r).2.1).1
  unfold OutboxRow.Sound
  rw [hid, after_created]

theorem toGo_after_eq (p : Poll) (keys : List (UUID × Time)) (e r : OutboxRow) :
    toGo e (p.after keys r) = if r.createdAt ≤ e.createdAt ∧ r.Sound then (p.after keys r).left else 0 := by
  simp only [toGo, after_sound, after_created]

theorem toGo_after (p : Poll) (keys : List (UUID × Time)) (e r : OutboxRow) : toGo e (p.after keys r) ≤ toGo e r := by
  have hleft : (p.after keys r).left ≤ r.left := by
    unfold Poll.after
    split_ifs
    · rcases marked_eq p r with heq | ⟨-, -, ⟨-, heq⟩ | ⟨-, heq⟩⟩
      · rw [heq]
      · rw [heq]; exact Nat.zero_le _
      · rw [heq]
        unfold OutboxRow.left
        split_ifs
        · exact le_rfl
        · exact Nat.sub_le_sub_left (Nat.le_succ _) _
    · exact le_rfl
  rw [toGo_after_eq, toGo]
  split_ifs
  · exact hleft
  · exact le_rfl

theorem toGo_fetched (hp : p.StoreOK) (hr : r ∈ p.fetch b s) (hsound : r.Sound) (hle : r.createdAt ≤ e.createdAt) :
    toGo e (p.after ((p.batch b s).map OutboxRow.key) r) < toGo e r := by
  obtain ⟨hrow, helig⟩ := mem_fetch_rows hr
  rw [eligible_iff] at helig
  have hleft : r.left = r.maxRetries - r.retryCount := if_neg (by simp [helig.1])
  rw [toGo_after_eq, toGo, if_pos ⟨hle, hsound⟩, if_pos ⟨hle, hsound⟩, hleft, Poll.after,
    if_pos ((after_batch hrow).2 ⟨hr, hsound.1⟩)]
  rcases marked_sound hp hsound with heq | heq
  · rw [heq, OutboxRow.left, if_pos rfl]
    omega
  · rw [heq, OutboxRow.left, if_neg (by simp [helig.1])]
    dsimp only
    omega

theorem stuck_after (p : Poll) (keys : List (UUID × Time)) (e r : OutboxRow) (h : stuck e (p.after keys r) = true) :
    stuck e r = true := by
  simp only [stuck, decide_eq_true_eq, after_sound, after_created, (after_same p keys r).2.1] at h ⊢
  refine ⟨?_, h.2⟩
  by_contra hno
  rw [(after_same p keys r).2.2 (by simpa using hno)] at h
  cases h.1

/-- If `e` waits, a sound row that is no younger goes on. -/
theorem sound_fetched (he : e ∈ s.rows) (helig : e.eligible = true) (hfew : s.rows.countP (stuck e) < b)
    (hwait : e ∉ p.fetch b s) : ∃ r ∈ p.fetch b s, r.Sound ∧ r.createdAt ≤ e.createdAt := by
  obtain ⟨hlen, hle⟩ := (fetch_oldest he helig).resolve_left hwait
  by_contra hall
  push Not at hall
  have hstuck : ∀ r ∈ p.fetch b s, stuck e r = true := fun r hr => by
    have hno : ¬ r.Sound := fun hsound => absurd (hle r hr) (not_le.2 (hall r hr hsound))
    have hother : r.key ≠ e.key := fun hkey =>
      hwait (inj_on_of_nodup_map s.keys (mem_fetch_rows hr).1 he hkey ▸ hr)
    simp [stuck, (mem_fetch_rows hr).2, hle r hr, hno, hother]
  have hcount : (p.fetch b s).countP (stuck e) = b := by rw [countP_eq_length.2 hstuck, hlen]
  have hrows : (p.fetch b s).countP (stuck e) ≤ s.rows.countP (stuck e) :=
    calc (p.fetch b s).countP (stuck e)
        ≤ (p.sort.read (s.rows.filter OutboxRow.eligible)).countP (stuck e) := (take_sublist _ _).countP_le
      _ = (s.rows.filter OutboxRow.eligible).countP (stuck e) := (p.sort.perm _).countP_eq _
      _ ≤ s.rows.countP (stuck e) := filter_sublist.countP_le
  omega

/-- Every poll that leaves `e` takes one of the publishes that are left to older rows. -/
theorem eventually_fetched {polls : List Poll} (he : e ∈ s.rows) (helig : e.eligible = true)
    (hfew : s.rows.countP (stuck e) < b) (hok : ∀ p ∈ polls, p.StoreOK)
    (hlen : (s.rows.map (toGo e)).sum < polls.length) :
    ∃ ps p ps', polls = ps ++ p :: ps' ∧ e ∈ p.fetch b (run (poll b) s ps) := by
  induction polls generalizing s with
  | nil => exact absurd hlen (Nat.not_lt_zero _)
  | cons p polls ih =>
    by_cases hwait : e ∈ p.fetch b s
    · exact ⟨[], p, polls, rfl, hwait⟩
    · obtain ⟨r, hr, hsound, hle⟩ := sound_fetched he helig hfew hwait
      set keys := (p.batch b s).map OutboxRow.key
      have hrows : (poll b s p).rows = s.rows.map (p.after keys) := poll_rows b s p
      have hsame : p.after keys e = e := if_neg fun hin => hwait ((after_batch he).1 hin).1
      have he' : e ∈ (poll b s p).rows := by
        rw [hrows, ← hsame]
        exact mem_map_of_mem he
      have hfew' : (poll b s p).rows.countP (stuck e) < b := by
        rw [hrows, countP_map]
        exact (countP_mono_left fun x _ => stuck_after p keys e x).trans_lt hfew
      have hless : ((poll b s p).rows.map (toGo e)).sum < (s.rows.map (toGo e)).sum := by
        rw [hrows, map_map]
        exact sum_lt_sum _ _ (fun x _ => toGo_after p keys e x)
          ⟨r, (mem_fetch_rows hr).1, toGo_fetched (hok p mem_cons_self) hr hsound hle⟩
      obtain ⟨ps, q, ps', hsplit, hin⟩ := ih he' hfew' (fun q hq => hok q (mem_cons_of_mem _ hq))
        (Nat.lt_of_lt_of_le hless (Nat.le_of_lt_succ hlen))
      exact ⟨p :: ps, q, ps', congrArg (p :: ·) hsplit, hin⟩

/-! ### A relay that is blocked -/

theorem stuck_stays (h : stuck e r = true) : p.after ((p.batch b s).map OutboxRow.key) r = r := by
  simp only [stuck, decide_eq_true_eq] at h
  unfold Poll.after
  split_ifs with hin
  · obtain ⟨x, hx, hkey⟩ := mem_map.1 hin
    have hid : r.id ≠ UUID.nil := (Prod.mk.inj hkey).1 ▸ (mem_batch.1 hx).2
    exact if_neg fun hmark => h.2.2.1 ⟨hid, hmark.1⟩
  · rfl

/-- Among rows of one time, `e` comes last. -/
def lastOf (e a a' : OutboxRow) : Prop :=
  a.createdAt < a'.createdAt ∨ a.createdAt = a'.createdAt ∧ (a.key = e.key → a'.key = e.key)

instance (e : OutboxRow) : DecidableRel (lastOf e) := fun _ _ => inferInstanceAs (Decidable (_ ∨ _))

theorem pairwise_lastOf (e : OutboxRow) (l : List OutboxRow) : (l.insertionSort (lastOf e)).Pairwise (lastOf e) := by
  have : Std.Total (lastOf e) := ⟨fun a a' => by
    rcases lt_trichotomy a.createdAt a'.createdAt with h | h | h
    · exact .inl (.inl h)
    · by_cases he : a'.key = e.key
      · exact .inl (.inr ⟨h, fun _ => he⟩)
      · exact .inr (.inr ⟨h.symm, fun h => (he h).elim⟩)
    · exact .inr (.inl h)⟩
  have : IsTrans OutboxRow (lastOf e) := ⟨by
    rintro a a' a'' (h | ⟨h, hk⟩) (h' | ⟨h', hk'⟩)
    · exact .inl (h.trans h')
    · exact .inl (h' ▸ h)
    · exact .inl (h ▸ h')
    · exact .inr ⟨h.trans h', hk' ∘ hk⟩⟩
  exact List.pairwise_insertionSort (lastOf e) l

/-- A poll that goes well and reads `e` after all rows of its time. -/
def pollLast (e : OutboxRow) : Poll where
  sort := ⟨⟨fun l => l.insertionSort (lastOf e), fun l => List.perm_insertionSort _ l⟩, fun l =>
    (pairwise_lastOf e l).imp fun h => h.elim (fun h => h.asymm) fun h => h.1.symm.not_lt⟩
  schedule := ⟨Reading.inserted, fun _ _ => rfl⟩
  publish _ := .ok
  mark _ := .ok

theorem not_fetched (hmany : b ≤ s.rows.countP (stuck e)) : e ∉ (pollLast e).fetch b s := by
  intro hin
  set rows := (s.rows.filter OutboxRow.eligible).insertionSort (lastOf e)
  obtain ⟨before, after, hsplit⟩ := append_of_mem (show e ∈ rows.take b from hin)
  have hall : rows = before ++ e :: (after ++ rows.drop b) := by
    rw [← cons_append, ← append_assoc, ← hsplit, take_append_drop]
  -- the stuck rows are all read before `e`
  have hlater : (e :: (after ++ rows.drop b)).countP (stuck e) = 0 := by
    have hsorted : rows.Pairwise (lastOf e) := pairwise_lastOf e _
    rw [hall] at hsorted
    have hlast := (pairwise_cons.1 (pairwise_append.1 hsorted).2.1).1
    refine countP_eq_zero.2 (forall_mem_cons.2 ⟨by simp [stuck], fun r hr hstuck => ?_⟩)
    simp only [stuck, decide_eq_true_eq] at hstuck
    rcases hlast r hr with hlt | ⟨-, hkey⟩
    · exact absurd hlt (not_lt.2 hstuck.2.1)
    · exact hstuck.2.2.2 (hkey rfl)
  have hcount : rows.countP (stuck e) = s.rows.countP (stuck e) := by
    rw [(perm_insertionSort _ _).countP_eq, countP_filter]
    refine countP_congr fun r _ => ?_
    simp +contextual [stuck]
  have hlen : before.length < b := by
    have := congrArg length hsplit
    rw [length_take, length_append, length_cons] at this
    omega
  rw [← hcount, hall, countP_append, hlater] at hmany
  have := countP_le_length (p := stuck e) (l := before)
  omega

theorem never_fetched (hmany : b ≤ s.rows.countP (stuck e)) (n : ℕ) :
    e ∉ (pollLast e).fetch b (run (poll b) s (replicate n (pollLast e))) := by
  induction n generalizing s with
  | zero => exact not_fetched hmany
  | succ n ih =>
    refine ih (hmany.trans ?_)
    rw [poll_rows, countP_map]
    refine countP_mono_left fun r _ hr => ?_
    rw [Function.comp_apply, stuck_stays hr]
    exact hr

/-- **What a poll fetches goes on exactly if it is sound, and a row is fetched** after finitely many polls exactly if
it has retries left and fewer rows than the batch has places are stuck before it. -/
theorem relay_progress (batchSize : ℕ) (s : Outbox) :
    (∀ p : Poll, p.StoreOK → ∀ e ∈ p.fetch batchSize s,
      ((∃ r ∈ (poll batchSize s p).rows, r.key = e.key ∧ (r.published = true ∨ e.retryCount < r.retryCount)) ↔
        e.Sound)) ∧
    ∀ e ∈ s.rows,
      ((∃ n, ∀ polls : List Poll, (∀ p ∈ polls, p.StoreOK) → n < polls.length →
          ∃ ps p ps', polls = ps ++ p :: ps' ∧ e ∈ p.fetch batchSize (run (poll batchSize) s ps)) ↔
        e.eligible = true ∧ s.rows.countP (stuck e) < batchSize) := by
  refine ⟨fun _ hp _ he => fetched_iff hp he, fun e he => ⟨?_, fun ⟨helig, hfew⟩ =>
    ⟨(s.rows.map (toGo e)).sum, fun _ hok hlen => eventually_fetched he helig hfew hok hlen⟩⟩⟩
  rintro ⟨n, hall⟩
  obtain ⟨ps, p, ps', hsplit, hin⟩ := hall (replicate (n + 1) (pollLast e))
    (fun p hp _ => by rw [eq_of_mem_replicate hp]; rfl) (by simp)
  refine ⟨(mem_fetch_rows hin).2, not_le.1 fun hmany => ?_⟩
  obtain ⟨rfl, hps⟩ : p = pollLast e ∧ ps = replicate ps.length (pollLast e) := by
    have hmem : ∀ q ∈ ps ++ p :: ps', q = pollLast e := fun q hq => eq_of_mem_replicate (hsplit ▸ hq)
    exact ⟨hmem p (by simp), eq_replicate_of_mem fun q hq => hmem q (mem_append_left _ hq)⟩
  rw [hps] at hin
  exact never_fetched hmany _ hin

/-- **A blocked relay**: an entry without an ID is fetched first, with a batch of one, and stays as it
is. -/
theorem relay_blocked : (poll 1 (twoRows UUID.nil) (pollFailing none)).rows = (twoRows UUID.nil).rows ∧
    (pollFailing none).StoreOK ∧ ∀ n, ((pollFailing none).fetch 1
      (run (poll 1) (twoRows UUID.nil) (List.replicate n (pollFailing none)))) = [rowOf UUID.nil 1] := by
  have hstay : poll 1 (twoRows UUID.nil) (pollFailing none) = twoRows UUID.nil := rfl
  refine ⟨congrArg _ hstay, fun _ => rfl, fun n => ?_⟩
  induction n with
  | zero => rfl
  | succ n ih => rw [replicate_succ, run_cons, hstay, ih]

end Settla.Node.Relay
