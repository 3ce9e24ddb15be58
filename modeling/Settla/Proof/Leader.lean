import Settla.Node.Leader

/-!
# At most one leader of the relay

The key in the bucket belongs to an instance that leads, until it expires. Two instances can hold themselves for the
leader only if one of them last wrote the key a TTL ago or more.
-/

namespace Settla.Node

open Lib Lib.Threads Function

variable {ι : Type} [DecidableEq ι] {s : Election ι} {e : LeaderElector} {i j : ι}

/-- The elector leads or is about to, and its key has not expired. -/
def LeaderElector.Leads (now : Time) (e : LeaderElector) : Prop :=
  (e.isLeader = true ∨ e.phase = .reply true) ∧ now < e.renewedAt + leaderTTL

/-- The key of a leader is still its own, and so is the key with a revision it has read. -/
def Fits (s : Election ι) (i : ι) (e : LeaderElector) : Prop :=
  (e.Leads s.now → ∃ k ∈ s.key, k.identity = s.identity i ∧ k.writtenAt = e.renewedAt) ∧
    ∀ revision, e.phase = .update revision →
      revision ≤ s.revision ∧ ∀ k ∈ s.key, k.revision = revision → k.identity = s.identity i

structure Leased (s : Election ι) : Prop where
  ids : Injective s.identity
  used : ∀ k ∈ s.key, k.revision ≤ s.revision
  fits : ∀ i, Fits s i (s.electors i)

theorem Leased.set (h : Leased s) (he : Fits s i e) : Leased (s.set i e) :=
  ⟨h.ids, h.used, (forall_update_iff _ fun j e => Fits s j e).2 ⟨he, fun j _ => h.fits j⟩⟩

/-- A key that is missing or one's own is not that of another leader. -/
theorem Leased.put (h : Leased s) (hown : ∀ k ∈ s.key, k.identity = s.identity i) (ok : Bool) :
    Leased (s.put i ok) := by
  refine ⟨h.ids, fun k hk => ?_, (forall_update_iff _ fun j e => Fits (s.put i ok) j e).2 ⟨?_, fun j hj => ?_⟩⟩
  · cases hk
    exact le_rfl
  · exact ⟨fun _ => ⟨_, rfl, rfl, rfl⟩, nofun⟩
  · refine ⟨fun hlead => ?_, fun revision hrev => ?_⟩
    · obtain ⟨k, hk, hid, -⟩ := (h.fits j).1 hlead
      exact absurd (h.ids (hid.symm.trans (hown k hk))) hj
    · have hle := ((h.fits j).2 revision hrev).1
      refine ⟨Nat.le_succ_of_le hle, fun k hk heq => ?_⟩
      cases hk
      exact absurd heq (Nat.lt_succ_of_le hle).ne'

theorem leased_next (h : Leased s) (i : ι) (r : Reply) : Leased (s.next i r) := by
  have hi := h.fits i
  have hfailed : Leased (s.set i { s.electors i with phase := .reply false }) :=
    h.set ⟨fun hlead => hi.1 ⟨.inl (hlead.1.resolve_right nofun), hlead.2⟩, nofun⟩
  unfold Election.next
  dsimp only
  split
  · split
    · rename_i hflag
      split
      · rename_i k hk
        split
        · rename_i hread
          -- `Get` has read one's own key
          refine h.set ⟨fun hlead => hi.1 ⟨.inl hflag, hlead.2⟩, fun revision hrev => ?_⟩
          cases hrev
          refine ⟨h.used k hk, fun k' hk' _ => ?_⟩
          rw [Option.mem_unique hk' hk]
          exact hread.2
        · exact hfailed
      · exact hfailed
    · split
      · rename_i hfree
        -- `Create` finds no key
        rw [Option.isNone_iff_eq_none] at hfree
        exact h.put (fun k hk => by rw [hfree.1] at hk; cases hk) _
      · exact hfailed
  · rename_i revision hphase
    split
    · rename_i hsame
      -- `Update` finds the revision that was read
      refine h.put (fun k hk => (hi.2 revision hphase).2 k hk ?_) _
      have hany := hsame.1
      rw [Option.mem_def.1 hk] at hany
      simpa using hany
    · exact hfailed
  · rename_i ok hphase
    refine h.set ⟨fun hlead => hi.1 ⟨.inr ?_, hlead.2⟩, nofun⟩
    exact hphase.trans (congrArg _ (hlead.1.resolve_right nofun))
  · exact h

theorem leased_step (step : ElectionStep ι) (h : Leased s) : Leased (s.step step) := by
  cases step with
  | tick d =>
    refine ⟨h.ids, h.used, fun i => ⟨fun hlead => (h.fits i).1 ⟨hlead.1, ?_⟩, (h.fits i).2⟩⟩
    exact (le_add_of_nonneg_right (Int.natCast_nonneg d)).trans_lt hlead.2
  | expire =>
    simp only [Election.step]
    split
    · rename_i hold
      refine ⟨h.ids, nofun, fun i => ⟨fun hlead => ?_, fun revision hrev => ⟨((h.fits i).2 revision hrev).1, nofun⟩⟩⟩
      -- a key that is old enough is not that of a leader
      obtain ⟨k, hk, -, hat⟩ := (h.fits i).1 hlead
      rw [Option.mem_def.1 hk, Option.any_some, decide_eq_true_eq, hat] at hold
      exact absurd hold hlead.2.not_ge
    · exact h
  | next i r => exact leased_next h i r
  | stop i waiting =>
    simp only [Election.step]
    split
    · refine h.set ⟨fun hlead => (h.fits i).1 ⟨.inl ?_, hlead.2⟩, nofun⟩
      exact (Bool.and_eq_true_iff.1 (hlead.1.resolve_right nofun)).2
    · exact h

/-- **Two instances lead only while one has let its key expire**: at each point of every interleaving of their calls,
with failures, lost and late replies and stops, one of two leaders last wrote the key `leaderTTL` ago or before. -/
theorem one_leader (hids : Injective s.identity) (hkey : ∀ k ∈ s.key, k.revision ≤ s.revision)
    (hstart : ∀ i, (s.electors i).isLeader = false ∧ (s.electors i).phase = .turn) (steps : List (ElectionStep ι))
    (hne : i ≠ j) :
    let s' := run Election.step s steps
    (s'.electors i).isLeader → (s'.electors j).isLeader →
      ∃ e ∈ [s'.electors i, s'.electors j], e.renewedAt + leaderTTL ≤ s'.now := by
  intro s' hi hj
  have hinit : Leased s := ⟨hids, hkey, fun i => by simp [Fits, LeaderElector.Leads, hstart]⟩
  have hs : Leased s' := run_invariant (fun _ step => leased_step step) hinit steps
  by_contra! hall
  obtain ⟨k, hk, hid, -⟩ := (hs.fits i).1 ⟨.inl hi, hall _ (by simp)⟩
  obtain ⟨k', hk', hid', -⟩ := (hs.fits j).1 ⟨.inl hj, hall _ (by simp)⟩
  rw [Option.mem_unique hk' hk] at hid'
  exact hne (hs.ids (hid.symm.trans hid'))

/-- A leader whose loop stands still is replaced, and still leads. -/
theorem one_leader_stalled :
    let s : Election Bool := ⟨toString, fun _ => ⟨false, .turn, 0⟩, 0, none, 0⟩
    let s' := run Election.step s
      [.next true .ok, .next true .ok, .tick (10 ^ 10), .expire, .next false .ok, .next false .ok]
    ∃ e ∈ [s'.electors true, s'.electors false], e.renewedAt + leaderTTL ≤ s'.now :=
  one_leader (by decide) (fun _ h => by cases h) (fun _ => ⟨rfl, rfl⟩) _ (by decide) (by decide +kernel)
    (by decide +kernel)

end Settla.Node
