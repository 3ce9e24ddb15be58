import Settla.Core.Detector

/-!
# Escalation of stuck transfers

A cycle leaves a transfer before it comes to the escalation in two places: where its tenant has
had its fifty, and where the recovery has failed with an error.
-/

namespace Settla.Recovery

open Lib.Keyed List

/-- A listed transfer: its thresholds and answers, and how many of its tenant come before it in its
list. -/
structure Occurrence where
  thresholds : Thresholds
  transfer : StuckTransfer
  answers : Answers
  earlier : ℕ

def Occurrence.Reached (o : Occurrence) : Prop := o.earlier < maxPerTenantPerCycle

def Occurrence.Overdue (now : Time) (o : Occurrence) : Prop := o.thresholds.escalate ≤ now - o.transfer.updatedAt

def Occurrence.outcome (o : Occurrence) : Outcome := recoverTransfer o.transfer o.answers

def Occurrence.Escalates (now : Time) (o : Occurrence) : Prop := o.Reached ∧ o.outcome = .skipped ∧ o.Overdue now

/-- The transfers of a list, after those of the tenants `seen`. -/
def listed (th : Thresholds) (seen : List UUID) : List (StuckTransfer × Answers) → List Occurrence
  | [] => []
  | (t, a) :: rest => ⟨th, t, a, seen.count t.tenantID⟩ :: listed th (t.tenantID :: seen) rest

def occurrences (thresholds : List (TransferStatus × Thresholds)) (listing : Listing) (now : Time) : List Occurrence :=
  thresholds.flatMap fun e => listed e.2 [] ((listing e.1 (now - e.2.recover)).getD [])

def Answers.ReviewsWork (a : Answers) : Prop := a.hasActiveReview = true ∧ a.createManualReview = true

/-! ## One transfer -/

variable {now : Time} {th : Thresholds} {c : Cycle} {t : StuckTransfer} {a : Answers}

theorem escalate_active (h : a.ReviewsWork) (reviews : List ManualReview) (id : UUID) :
    Active (escalate reviews t a).1 id ↔ Active reviews id ∨ t.id = id := by
  unfold escalate
  rw [if_neg (not_not.2 h.1)]
  by_cases hactive : Active reviews t.id
  · rw [if_pos hactive]
    constructor
    · exact Or.inl
    · rintro (hid | rfl)
      · exact hid
      · exact hactive
  · rw [if_neg hactive, if_neg (not_not.2 h.2)]
    simp [Active, or_and_right, exists_or]

theorem handle_active (h : a.ReviewsWork) (id : UUID) :
    Active (c.handle now th t a).reviews id ↔
      Active c.reviews id ∨ (recoverTransfer t a = .skipped ∧ th.escalate ≤ now - t.updatedAt ∧ t.id = id) := by
  unfold Cycle.handle
  cases recoverTransfer t a with
  | failed | acted | advanced => simp
  | skipped =>
    by_cases hoverdue : th.escalate ≤ now - t.updatedAt
    · simp only [hoverdue, if_true, true_and]
      exact escalate_active h c.reviews id
    · simp [hoverdue]

/-! ## A list -/

/-- **The reviews that the loop over a list adds.** -/
theorem list_active (transfers : List (StuckTransfer × Answers)) (counts : UUID → ℕ) (seen : List UUID)
    (hcounts : ∀ u, counts u = min maxPerTenantPerCycle (seen.count u)) (c : Cycle)
    (hworks : ∀ p ∈ transfers, p.2.ReviewsWork) (id : UUID) :
    Active (Cycle.list now th counts c transfers).reviews id ↔
      Active c.reviews id ∨ ∃ o ∈ listed th seen transfers, o.Escalates now ∧ o.transfer.id = id := by
  induction transfers generalizing counts seen c with
  | nil => simp [Cycle.list, listed]
  | cons p rest ih =>
    obtain ⟨t, a⟩ := p
    obtain ⟨ha, hrest⟩ := forall_mem_cons.1 hworks
    unfold Cycle.list listed
    rw [exists_mem_cons_iff]
    have hcount := hcounts t.tenantID
    have hreached : maxPerTenantPerCycle ≤ counts t.tenantID ↔ ¬ seen.count t.tenantID < maxPerTenantPerCycle := by
      omega
    by_cases hcap : maxPerTenantPerCycle ≤ counts t.tenantID
    · have hcounts' : ∀ u, counts u = min maxPerTenantPerCycle ((t.tenantID :: seen).count u) := by
        intro u
        rw [hcounts u, count_cons]
        by_cases hu : t.tenantID = u
        · subst hu
          have hfull := hreached.1 hcap
          omega
        · simp [hu]
      rw [if_pos hcap, ih counts (t.tenantID :: seen) hcounts' _ hrest]
      have hnot : ¬ ((Occurrence.mk th t a (seen.count t.tenantID)).Escalates now ∧ t.id = id) :=
        fun h => hreached.1 hcap h.1.1
      rw [or_iff_right hnot]
    · have hcounts' : ∀ u, Function.update counts t.tenantID (counts t.tenantID + 1) u =
          min maxPerTenantPerCycle ((t.tenantID :: seen).count u) := by
        intro u
        rw [count_cons]
        by_cases hu : u = t.tenantID
        · subst hu
          rw [Function.update_self]
          simp only [beq_self_eq_true, if_true]
          omega
        · rw [Function.update_of_ne hu, hcounts u]
          simp [Ne.symm hu]
      rw [if_neg hcap, ih _ (t.tenantID :: seen) hcounts' _ hrest, handle_active ha]
      have hhead : ((Occurrence.mk th t a (seen.count t.tenantID)).Escalates now ∧ t.id = id) ↔
          (recoverTransfer t a = .skipped ∧ th.escalate ≤ now - t.updatedAt ∧ t.id = id) := by
        have hr : (Occurrence.mk th t a (seen.count t.tenantID)).Reached := not_not.1 (mt hreached.2 hcap)
        unfold Occurrence.Escalates
        rw [and_iff_right hr, and_assoc]
        rfl
      rw [hhead, or_assoc]

/-! ## A cycle -/

theorem mem_listed (th : Thresholds) {transfers : List (StuckTransfer × Answers)} (seen : List UUID)
    {p : StuckTransfer × Answers}
    (hp : p ∈ transfers) : ∃ o ∈ listed th seen transfers, o.answers = p.2 := by
  induction transfers generalizing seen with
  | nil => nomatch hp
  | cons q rest ih =>
    rcases mem_cons.1 hp with rfl | hp
    · exact ⟨_, mem_cons_self, rfl⟩
    · obtain ⟨o, ho, heq⟩ := ih (q.1.tenantID :: seen) hp
      exact ⟨o, mem_cons_of_mem _ ho, heq⟩

theorem statuses_active (listing : Listing) (now : Time) (entries : List (TransferStatus × Thresholds)) (c : Cycle)
    (hworks : ∀ o ∈ occurrences entries listing now, o.answers.ReviewsWork) (id : UUID) :
    Active (entries.foldl (fun c e =>
      match listing e.1 (now - e.2.recover) with
      | none => c
      | some transfers => Cycle.list now e.2 (fun _ => 0) c transfers) c).reviews id ↔
      Active c.reviews id ∨ ∃ o ∈ occurrences entries listing now, o.Escalates now ∧ o.transfer.id = id := by
  induction entries generalizing c with
  | nil => simp [occurrences]
  | cons e entries ih =>
    have hcons : occurrences (e :: entries) listing now =
        listed e.2 [] ((listing e.1 (now - e.2.recover)).getD []) ++ occurrences entries listing now := flatMap_cons
    rw [hcons] at hworks ⊢
    have hrest := fun o ho => hworks o (mem_append_right _ ho)
    rw [foldl_cons, ih _ hrest]
    simp only [mem_append, or_and_right, exists_or]
    rw [← or_assoc]
    refine or_congr_left ?_
    cases hlisting : listing e.1 (now - e.2.recover) with
    | none => simp [listed]
    | some transfers =>
      rw [hlisting] at hworks
      refine list_active transfers (fun _ => 0) [] (fun _ => rfl) c (fun p hp => ?_) id
      obtain ⟨o, ho, heq⟩ := mem_listed e.2 [] hp
      rw [← heq]
      exact hworks o (mem_append_left _ ho)

/-- **The reviews that a cycle adds.** -/
theorem cycle_active (order : Reading (TransferStatus × Thresholds)) (thresholds : List (TransferStatus × Thresholds))
    (listing : Listing) (now : Time) (reviews : List ManualReview)
    (hworks : ∀ o ∈ occurrences thresholds listing now, o.answers.ReviewsWork) (id : UUID) :
    Active (runCycle order thresholds listing now reviews).reviews id ↔
      Active reviews id ∨ ∃ o ∈ occurrences thresholds listing now, o.Escalates now ∧ o.transfer.id = id := by
  have hmem : ∀ o, o ∈ occurrences (order.read thresholds) listing now ↔ o ∈ occurrences thresholds listing now :=
    fun o => (List.Perm.flatMap_right _ (order.perm thresholds)).mem_iff
  have hcycle := statuses_active listing now (order.read thresholds) ⟨reviews, 0, 0, 0⟩
    (fun o ho => hworks o ((hmem o).1 ho)) id
  simp only [hmem] at hcycle
  exact hcycle

variable (succeeded : Outcome → Prop)

/-- Every transfer that is stuck for long, and was not recovered, has an active review. -/
def Escalated (os : List Occurrence) (now : Time) (reviews : List ManualReview) : Prop :=
  ∀ o ∈ os, o.Overdue now →
    (∀ o' ∈ os, o'.transfer.id = o.transfer.id → ¬ (o'.Reached ∧ succeeded o'.outcome)) → Active reviews o.transfer.id

/-- Every transfer that is stuck for long has an active review, or is among the fifty of its tenant
and its recovery succeeds, or is skipped without an error. -/
def Covered (os : List Occurrence) (now : Time) (reviews : List ManualReview) : Prop :=
  ∀ o ∈ os, o.Overdue now → Active reviews o.transfer.id ∨
    ∃ o' ∈ os, o'.transfer.id = o.transfer.id ∧ o'.Reached ∧
      (succeeded o'.outcome ∨ o'.outcome = .skipped ∧ o'.Overdue now)

theorem escalated_iff_covered {os : List Occurrence} {before after : List ManualReview}
    (hafter : ∀ id, Active after id ↔ Active before id ∨ ∃ o ∈ os, o.Escalates now ∧ o.transfer.id = id) :
    Escalated succeeded os now after ↔ Covered succeeded os now before := by
  constructor
  · intro hescalated o ho hoverdue
    by_cases hsuccess : ∃ o' ∈ os, o'.transfer.id = o.transfer.id ∧ o'.Reached ∧ succeeded o'.outcome
    · obtain ⟨o', ho', hid, hreached, hdone⟩ := hsuccess
      exact Or.inr ⟨o', ho', hid, hreached, Or.inl hdone⟩
    · have hactive := hescalated o ho hoverdue fun o' ho' hid hdone => hsuccess ⟨o', ho', hid, hdone.1, hdone.2⟩
      rcases (hafter _).1 hactive with hactive | ⟨o', ho', ⟨hreached, hskipped, hoverdue'⟩, hid⟩
      · exact Or.inl hactive
      · exact Or.inr ⟨o', ho', hid, hreached, Or.inr ⟨hskipped, hoverdue'⟩⟩
  · intro hcovered o ho hoverdue hnone
    rcases hcovered o ho hoverdue with hactive | ⟨o', ho', hid, hreached, hdone | ⟨hskipped, hoverdue'⟩⟩
    · exact (hafter _).2 (Or.inl hactive)
    · exact absurd ⟨hreached, hdone⟩ (hnone o' ho' hid)
    · exact (hafter _).2 (Or.inr ⟨o', ho', ⟨hreached, hskipped, hoverdue'⟩, hid⟩)

/-- **Nothing stuck is left unescalated** after a cycle exactly if every transfer that is stuck for
long is covered, for both notions of a recovery that succeeds: the engine has carried out its call,
or the detector counts it. -/
theorem stuck_escalated_iff (order : Reading (TransferStatus × Thresholds))
    (thresholds : List (TransferStatus × Thresholds)) (listing : Listing) (now : Time) (reviews : List ManualReview)
    (hworks : ∀ o ∈ occurrences thresholds listing now, o.answers.ReviewsWork) :
    (Escalated (· = .acted) (occurrences thresholds listing now) now
        (runCycle order thresholds listing now reviews).reviews ↔
      Covered (· = .acted) (occurrences thresholds listing now) now reviews) ∧
    (Escalated (fun r => r = .acted ∨ r = .advanced) (occurrences thresholds listing now) now
        (runCycle order thresholds listing now reviews).reviews ↔
      Covered (fun r => r = .acted ∨ r = .advanced) (occurrences thresholds listing now) now reviews) := by
  have hafter := cycle_active order thresholds listing now reviews hworks
  exact ⟨escalated_iff_covered _ hafter, escalated_iff_covered _ hafter⟩

def oneStuck (provider : Option ProviderStatus) : Listing := fun status _ =>
  if status = .onRamping then
    some [(⟨5, 1, .onRamping, 0, []⟩, ⟨false, provider, none, .ok (), true, true⟩)]
  else some []

theorem pending_escalated :
    Escalated (· = .acted) (occurrences defaultThresholds (oneStuck (some ⟨"pending", "", ""⟩)) (120 * minute))
      (120 * minute)
      (runCycle Reading.inserted defaultThresholds (oneStuck (some ⟨"pending", "", ""⟩)) (120 * minute) []).reviews := by
  refine (stuck_escalated_iff Reading.inserted defaultThresholds (oneStuck (some ⟨"pending", "", ""⟩)) (120 * minute) []
    ?_).1.2 ?_
  · intro o ho
    rw [mem_singleton.1 ho]
    exact ⟨rfl, rfl⟩
  · intro o ho hoverdue
    rw [mem_singleton.1 ho] at hoverdue ⊢
    exact Or.inr ⟨_, mem_singleton_self _, rfl, Nat.zero_lt_succ _, Or.inr ⟨by decide, hoverdue⟩⟩

theorem unreachable_provider_unescalated :
    (occurrences defaultThresholds (oneStuck none) (120 * minute)).map
        (fun o => (o.transfer.id, o.transfer.updatedAt, o.thresholds.escalate, o.outcome)) =
        [(5, 0, 60 * minute, .failed)] ∧
      (runCycle Reading.inserted defaultThresholds (oneStuck none) (120 * minute) []).reviews = [] := by
  decide +kernel

end Settla.Recovery
