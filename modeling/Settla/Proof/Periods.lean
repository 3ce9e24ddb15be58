import Settla.Core.SettlementScheduler

/-!
# One settlement per period

The unique constraint on the tenant and the period of a settlement also has the time at which
the row was created, so it only refuses a second row of the same instant.
-/

namespace Settla.Settlement

open Lib List

/-! ## One calculation -/

def Calculation.Proceeds (c : Calculation) : Prop :=
  c.periodStart < c.periodEnd ∧ (∃ t, c.tenant = some t ∧ t.settlementModel = .netSettlement) ∧ c.aggregates ≠ none

def Calculation.key (c : Calculation) : UUID × Time × Time := (c.tenantID, c.periodStart, c.periodEnd)

def SettlementRow.key (r : SettlementRow) : UUID × Time × Time :=
  (r.settlement.tenantID, r.settlement.periodStart, r.settlement.periodEnd)

def Settled (rows : List SettlementRow) (c : Calculation) : Prop := c.key ∈ rows.map SettlementRow.key

/-- A row with its tenant and period, or its ID, was created in the same instant. -/
def Refused (rows : List SettlementRow) (c : Calculation) (now : Time) : Prop :=
  ∃ r ∈ rows, r.createdAt = now ∧ (r.settlement.id = c.id ∨ r.key = c.key)

variable {rows : List SettlementRow} {c : Calculation} {now : Time} {reply : Threads.Reply}

/-- **When a calculation gets to its insert**, and with what. -/
theorem build_ok_iff {s : NetSettlement} :
    c.build = .ok s ↔ c.Proceeds ∧
      ∃ t as, c.tenant = some t ∧ c.aggregates = some as ∧ s = c.record t as := by
  unfold Calculation.build Calculation.Proceeds
  by_cases hperiod : c.periodStart < c.periodEnd
  · rw [if_neg (not_not.2 hperiod)]
    cases htenant : c.tenant with
    | none => simp
    | some t =>
      dsimp only
      by_cases hmodel : t.settlementModel = .netSettlement
      · rw [if_neg (not_not.2 hmodel)]
        cases c.aggregates with
        | none => simp
        | some as => simp [hperiod, hmodel, eq_comm]
      · rw [if_pos hmodel]
        simp [hmodel]
  · rw [if_pos hperiod]
    simp [hperiod]

theorem collides_iff (t : Tenant) (as : List CorridorAggregate) :
    (∃ r ∈ rows, r.Collides (c.record t as) now) ↔ Refused rows c now := by
  refine exists_congr fun r => and_congr_right fun _ => and_congr_right fun _ => or_congr_right ?_
  rw [Prod.mk.injEq, Prod.mk.injEq]
  rfl

/-- **What a calculation does to the table.** -/
theorem calculate_rows (rows : List SettlementRow) (c : Calculation) (now : Time) (reply : Threads.Reply) :
    ((calculateNetSettlement rows c now reply).2 = rows ∧ (c.Proceeds → reply = .error ∨ Refused rows c now)) ∨
      (c.Proceeds ∧ reply ≠ .error ∧ ¬ Refused rows c now ∧
        ∃ r : SettlementRow, r.key = c.key ∧ (calculateNetSettlement rows c now reply).2 = rows ++ [r]) := by
  cases hbuild : c.build with
  | error e =>
    refine Or.inl ⟨?_, fun hproceeds => ?_⟩
    · unfold calculateNetSettlement
      rw [hbuild]
    · obtain ⟨t, ht, -⟩ := hproceeds.2.1
      obtain ⟨as, has⟩ := Option.ne_none_iff_exists'.1 hproceeds.2.2
      rw [build_ok_iff.2 ⟨hproceeds, t, as, ht, has, rfl⟩] at hbuild
      nomatch hbuild
  | ok s =>
    have hinsert : (calculateNetSettlement rows c now reply).2 = (createNetSettlement rows s now reply).2 := by
      unfold calculateNetSettlement
      rw [hbuild]
      dsimp only
      split <;> rfl
    rw [hinsert]
    obtain ⟨hproceeds, t, as, -, -, rfl⟩ := build_ok_iff.1 hbuild
    unfold createNetSettlement
    by_cases herror : reply = .error
    · rw [if_pos herror]
      exact Or.inl ⟨rfl, fun _ => Or.inl herror⟩
    · rw [if_neg herror]
      by_cases hcollides : ∃ r ∈ rows, r.Collides (c.record t as) now
      · rw [if_pos hcollides]
        exact Or.inl ⟨rfl, fun _ => Or.inr ((collides_iff t as).1 hcollides)⟩
      · rw [if_neg hcollides]
        exact Or.inr ⟨hproceeds, herror, mt (collides_iff t as).2 hcollides, ⟨c.record t as, now, none⟩, rfl, rfl⟩

/-! ## Steps -/

theorem updateStatus_keys (rows : List SettlementRow) (id : UUID) (status : SettlementStatus) (now : Time) :
    (updateSettlementStatus rows id status now).map SettlementRow.key = rows.map SettlementRow.key := by
  unfold updateSettlementStatus
  rw [map_map]
  refine map_congr_left fun r _ => ?_
  show SettlementRow.key (if r.settlement.id = id then _ else r) = r.key
  split <;> rfl

theorem markOverdue_keys (fails : UUID → Bool) (now : Time) (rows : List SettlementRow) :
    (markOverdue fails now rows).map SettlementRow.key = rows.map SettlementRow.key := by
  unfold markOverdue
  generalize (listPendingSettlements rows).filterMap (checkOverdue now) = actions
  induction actions generalizing rows with
  | nil => rfl
  | cons a actions ih =>
    rw [foldl_cons, ih]
    split
    · exact updateStatus_keys rows a.settlementID .overdue now
    · rfl

variable (w : World) (e : Event)

/-- **What a step does to the table**: that of its calculation, if it makes one; otherwise the
tenants and periods stay. -/
theorem step_rows :
    (∃ c now reply, w.call e = some (c, now, reply) ∧ (w.step e).rows = (calculateNetSettlement w.rows c now reply).2) ∨
      (w.call e = none ∧ (w.step e).rows.map SettlementRow.key = w.rows.map SettlementRow.key) := by
  cases e with
  | tenants tenants | stop i => exact Or.inr ⟨rfl, rfl⟩
  | tick i now =>
    refine Or.inr ⟨rfl, ?_⟩
    unfold World.step
    dsimp only
    split <;> rfl
  | page i fails =>
    refine Or.inr ⟨rfl, ?_⟩
    unfold World.step
    dsimp only
    split
    · rfl
    · split
      · rfl
      · split <;> rfl
  | process i j a =>
    unfold World.step World.call
    dsimp only
    cases w.ticks i with
    | none => exact Or.inr ⟨rfl, rfl⟩
    | some t =>
      dsimp only
      cases t.queue[j]? with
      | none => exact Or.inr ⟨rfl, rfl⟩
      | some tenantID => exact Or.inl ⟨_, _, _, rfl, rfl⟩
  | finish i fails =>
    refine Or.inr ⟨rfl, ?_⟩
    unfold World.step
    dsimp only
    split
    · rfl
    · split
      · rfl
      · dsimp only
        split
        · rfl
        · exact markOverdue_keys _ _ _
  | calculate c now reply => exact Or.inl ⟨c, now, reply, rfl, rfl⟩
  | updateStatus id status now => exact Or.inr ⟨rfl, updateStatus_keys w.rows id status now⟩

/-! ## Runs -/

def World.OnePerPeriod : Prop := (w.rows.map SettlementRow.key).Nodup

/-- A calculation for a settled period changes nothing. -/
def World.Unchanged : Prop :=
  ∀ c now reply, w.call e = some (c, now, reply) → Settled w.rows c → (w.step e).rows = w.rows

/-- A calculation for a settled period fails at its insert, or has the clock of the database in the
instant in which a row with its tenant and period, or its ID, was created. -/
def World.Guarded : Prop :=
  ∀ c now reply, w.call e = some (c, now, reply) → Settled w.rows c → c.Proceeds →
    reply = .error ∨ Refused w.rows c now

theorem unchanged_iff_guarded : w.Unchanged e ↔ w.Guarded e := by
  rcases step_rows w e with ⟨c, now, reply, hcall, hrows⟩ | ⟨hcall, -⟩
  · unfold World.Unchanged World.Guarded
    rw [hcall, hrows]
    constructor
    · rintro hsame c' now' reply' heq hsettled hproceeds
      obtain ⟨rfl, rfl, rfl⟩ : c = c' ∧ now = now' ∧ reply = reply' := by
        simpa only [Option.some.injEq, Prod.mk.injEq] using heq
      rcases calculate_rows w.rows c now reply with
        ⟨-, hwhy⟩ | ⟨-, -, -, r, -, happend⟩
      · exact hwhy hproceeds
      · have hlength := congrArg List.length (happend.symm.trans (hsame c now reply rfl hsettled))
        simp at hlength
    · rintro hguard c' now' reply' heq hsettled
      obtain ⟨rfl, rfl, rfl⟩ : c = c' ∧ now = now' ∧ reply = reply' := by
        simpa only [Option.some.injEq, Prod.mk.injEq] using heq
      rcases calculate_rows w.rows c now reply with
        ⟨hsame, -⟩ | ⟨hproceeds, herror, hrefused, -⟩
      · exact hsame
      · rcases hguard c now reply rfl hsettled hproceeds with h | h
        · exact absurd h herror
        · exact absurd h hrefused
  · have hnone : ∀ c now reply, w.call e ≠ some (c, now, reply) := fun c now reply h => nomatch hcall.symm.trans h
    exact iff_of_true (fun c now reply h => absurd h (hnone c now reply)) fun c now reply h => absurd h (hnone c now reply)

/-- **A guarded step keeps one settlement per period.** -/
theorem onePerPeriod_step (hone : w.OnePerPeriod) (hguard : w.Guarded e) : (w.step e).OnePerPeriod := by
  unfold World.OnePerPeriod at hone ⊢
  rcases step_rows w e with ⟨c, now, reply, hcall, hrows⟩ | ⟨-, hkeys⟩
  · rw [hrows]
    rcases calculate_rows w.rows c now reply with
      ⟨hsame, -⟩ | ⟨hproceeds, herror, hrefused, r, hkey, happend⟩
    · rwa [hsame]
    · have hnew : ¬ Settled w.rows c := by
        intro hsettled
        rcases hguard c now reply hcall hsettled hproceeds with h | h
        · exact herror h
        · exact hrefused h
      rw [happend, map_append, map_singleton, hkey]
      exact hone.append (nodup_singleton _) (disjoint_singleton.2 hnew)
  · rwa [hkeys]

/-- **One settlement per period.** All states of a run have at most one settlement for each tenant
and period, and a calculation for a settled period never changes the table, exactly if every step is
guarded. -/
theorem one_settlement_iff (w : World) (hone : w.OnePerPeriod) (events : List Event) :
    ((∀ before, before <+: events → (run World.step w before).OnePerPeriod) ∧
        Along World.step World.Unchanged w events) ↔
      Along World.step World.Guarded w events := by
  have hiff : Along World.step World.Unchanged w events ↔ Along World.step World.Guarded w events :=
    along_congr (P := fun _ => True) (fun w e _ => unchanged_iff_guarded w e) (fun _ _ _ _ => trivial) trivial events
  constructor
  · rintro ⟨-, hunchanged⟩
    exact hiff.1 hunchanged
  · intro hguarded
    refine ⟨fun before hbefore => ?_, hiff.2 hguarded⟩
    obtain ⟨rest, rfl⟩ := hbefore
    exact run_preserves onePerPeriod_step hone (((along_append _ _ _).1 hguarded).1)

def oneTenant : World := ⟨[⟨1, "Fincra", true, .netSettlement, {}⟩], [], fun _ => none⟩

def tickAt (time : Time) (id : UUID) : List Event :=
  [.tick 0 (day + time), .page 0 false,
    .process 0 0 ⟨true, some [⟨"GBP", "NGN", 100, 200000, 1, 0⟩], Keyed.Reading.inserted, id, day + time + second, .ok⟩]

theorem first_tick_settles :
    (∀ before, before <+: tickAt minute 11 → (run World.step oneTenant before).OnePerPeriod) ∧
      Along World.step World.Unchanged oneTenant (tickAt minute 11) := by
  refine (one_settlement_iff oneTenant nodup_nil (tickAt minute 11)).2 ⟨?_, ?_, ?_, trivial⟩
  · intro c now reply hcall
    nomatch hcall
  · intro c now reply hcall
    nomatch hcall
  · intro c now reply _ hsettled
    nomatch hsettled

/-- A restart within the day: the tenant has two settlements for the day before. -/
theorem restart_settles_twice :
    (run World.step oneTenant (tickAt minute 11 ++ [.stop 0] ++ tickAt (2 * minute) 12)).rows.map
        (fun r => (r.settlement.id, r.key)) =
      [(11, 1, 0, day), (12, 1, 0, day)] := by
  decide +kernel

end Settla.Settlement
