import Mathlib.Data.List.Sort
import Settla.Core.Settlement
import Settla.Lib.Groups

/-!
# Netting and the tenants' own instructions

To the settlement of a tenant a positive net is what Settla owes, to the netting over all tenants what
the tenant owes.
-/

namespace Settla.Settlement

open Lib Lib.Keyed List

/-! ## The nets of a tenant -/

variable (currency : Currency) (aggregates : List CorridorAggregate)

def inflow : Decimal :=
  groupSum (·.destCurrency) (·.totalDest) currency aggregates

def outflow : Decimal :=
  groupSum (·.sourceCurrency) (·.totalSource) currency aggregates

def changes (a : CorridorAggregate) : List (Currency × (CurrencyNet → CurrencyNet)) :=
  [(a.sourceCurrency, CurrencyNet.send a.totalSource), (a.destCurrency, CurrencyNet.receive a.totalDest)]

theorem nets_eq : nets aggregates = tally newNet Prod.fst Prod.snd (aggregates.flatMap changes) := by
  unfold nets tally
  rw [foldl_flatMap]
  rfl

theorem changes_fold (n : CurrencyNet) :
    ((aggregates.flatMap changes).filter (·.1 = currency)).foldl (fun n c => c.2 n) n =
      ⟨n.currency, n.inflows + inflow currency aggregates, n.outflows + outflow currency aggregates, n.net⟩ := by
  induction aggregates generalizing n with
  | nil => simp [inflow, outflow, groupSum]
  | cons a as ih =>
    have hin : inflow currency (a :: as) = (if a.destCurrency = currency then a.totalDest else 0) + inflow currency as := by
      unfold inflow groupSum
      by_cases h : a.destCurrency = currency <;> simp [h]
    have hout : outflow currency (a :: as) =
        (if a.sourceCurrency = currency then a.totalSource else 0) + outflow currency as := by
      unfold outflow groupSum
      by_cases h : a.sourceCurrency = currency <;> simp [h]
    rw [flatMap_cons, filter_append, foldl_append, ih, hin, hout, ← add_assoc, ← add_assoc]
    by_cases hs : a.sourceCurrency = currency <;> by_cases hd : a.destCurrency = currency <;>
      simp [changes, hs, hd, CurrencyNet.send, CurrencyNet.receive]

/-- **The nets of a tenant**: one for every currency of a corridor. -/
theorem mem_netByCurrency (order : Reading (Currency × CurrencyNet)) (aggregates : List CorridorAggregate)
    (n : CurrencyNet) :
    n ∈ netByCurrencyFromAggregates order aggregates ↔
      (∃ a ∈ aggregates, a.sourceCurrency = n.currency ∨ a.destCurrency = n.currency) ∧
        n = ⟨n.currency, inflow n.currency aggregates, outflow n.currency aggregates,
          inflow n.currency aggregates - outflow n.currency aggregates⟩ := by
  have hkeys : ∀ currency, (∃ c ∈ aggregates.flatMap changes, c.1 = currency) ↔
      ∃ a ∈ aggregates, a.sourceCurrency = currency ∨ a.destCurrency = currency := by
    intro currency
    simp only [mem_flatMap, changes, mem_cons, not_mem_nil, or_false]
    constructor
    · rintro ⟨c, ⟨a, ha, rfl | rfl⟩, rfl⟩
      · exact ⟨a, ha, Or.inl rfl⟩
      · exact ⟨a, ha, Or.inr rfl⟩
    · rintro ⟨a, ha, rfl | rfl⟩
      · exact ⟨_, ⟨a, ha, Or.inl rfl⟩, rfl⟩
      · exact ⟨_, ⟨a, ha, Or.inr rfl⟩, rfl⟩
  have hentry : ∀ currency v, (currency, v) ∈ nets aggregates ↔
      (∃ a ∈ aggregates, a.sourceCurrency = currency ∨ a.destCurrency = currency) ∧
        v = ⟨currency, inflow currency aggregates, outflow currency aggregates, 0⟩ := by
    intro currency v
    rw [nets_eq, mem_tally, hkeys, changes_fold]
    simp only [newNet, zero_add]
  unfold netByCurrencyFromAggregates
  simp only [mem_map, order.mem, Prod.exists, hentry]
  constructor
  · rintro ⟨currency, v, ⟨hmem, rfl⟩, rfl⟩
    exact ⟨hmem, rfl⟩
  · rintro ⟨hmem, hn⟩
    exact ⟨n.currency, _, ⟨hmem, rfl⟩, hn.symm⟩

theorem nets_zero_iff (order : Reading (Currency × CurrencyNet)) (aggregates : List CorridorAggregate) :
    (∀ n ∈ netByCurrencyFromAggregates order aggregates, n.net = 0) ↔
      ∀ currency, inflow currency aggregates = outflow currency aggregates := by
  constructor
  · intro hzero currency
    by_cases hmem : ∃ a ∈ aggregates, a.sourceCurrency = currency ∨ a.destCurrency = currency
    · have hnet := hzero ⟨currency, inflow currency aggregates, outflow currency aggregates,
        inflow currency aggregates - outflow currency aggregates⟩
        ((mem_netByCurrency order aggregates _).2 ⟨hmem, rfl⟩)
      exact sub_eq_zero.1 hnet
    · have hnone : ∀ key : CorridorAggregate → Currency, (∀ a ∈ aggregates, key a ≠ currency) →
          aggregates.filter (key · = currency) = [] := by
        intro key hkey
        rw [filter_eq_nil_iff]
        intro a ha hkeya
        exact hkey a ha (of_decide_eq_true hkeya)
      unfold inflow outflow groupSum
      rw [hnone (·.destCurrency) fun a ha h => hmem ⟨a, ha, Or.inr h⟩,
        hnone (·.sourceCurrency) fun a ha h => hmem ⟨a, ha, Or.inl h⟩]
      rfl
  · intro heq n hn
    obtain ⟨-, hn⟩ := (mem_netByCurrency order aggregates n).1 hn
    rw [hn]
    exact sub_eq_zero.2 (heq n.currency)

/-! ## The two kinds of instructions -/

/-- The instructions of a settlement, without the one for the fees. -/
def netInstructions (s : NetSettlement) : List SettlementInstruction :=
  s.netByCurrency.filterMap (netInstruction s.tenantName)

theorem calculateNetSettlement_ok {rows : List SettlementRow} {c : Calculation} {now : Time} {reply : Threads.Reply}
    {s : NetSettlement} (h : (calculateNetSettlement rows c now reply).1 = .ok s) :
    ∃ tenant aggregates, c.tenant = some tenant ∧ c.aggregates = some aggregates ∧ s = c.record tenant aggregates := by
  unfold calculateNetSettlement at h
  cases hbuild : c.build with
  | error e =>
    rw [hbuild] at h
    nomatch h
  | ok s' =>
    have hs : s = s' := by
      rw [hbuild] at h
      dsimp only at h
      split at h
      · exact (Except.ok.inj h).symm
      · exact (Except.ok.inj h).symm
      · nomatch h
    subst hs
    unfold Calculation.build at hbuild
    split at hbuild
    · nomatch hbuild
    split at hbuild
    · nomatch hbuild
    rename_i tenant htenant
    split at hbuild
    · nomatch hbuild
    split at hbuild
    · nomatch hbuild
    rename_i aggregates haggregates
    exact ⟨tenant, aggregates, htenant, haggregates, (Except.ok.inj hbuild).symm⟩

variable (order : NettingOrder) (settlements : List NetSettlement)

/-- **Netting makes the instructions of the single positions.** -/
theorem netted_perm :
    (calculateCrossTenantNetting order settlements).nettedInstructions.Perm
      ((positions settlements).filterMap nettedInstruction) := by
  unfold calculateCrossTenantNetting
  refine (List.Perm.flatMap_right _ (order.currencies.perm _)).trans ?_
  refine (List.Perm.flatMap_left _ fun e _ => (order.largest.perm e.2).filterMap nettedInstruction).trans ?_
  rw [← filterMap_flatMap]
  exact (grouped_perm _).filterMap nettedInstruction

theorem mem_netted (i : NettedInstruction) :
    i ∈ (calculateCrossTenantNetting order settlements).nettedInstructions ↔
      ∃ s ∈ settlements, ∃ n ∈ s.netByCurrency,
        nettedInstruction ⟨n.currency, s.tenantID, s.tenantName, n.net⟩ = some i := by
  rw [(netted_perm order settlements).mem_iff]
  simp only [mem_filterMap, positions, mem_flatMap, mem_map]
  constructor
  · rintro ⟨_, ⟨s, hs, n, hn, rfl⟩, hi⟩
    exact ⟨s, hs, n, hn, hi⟩
  · rintro ⟨s, hs, n, hn, hi⟩
    exact ⟨_, ⟨s, hs, n, hn, rfl⟩, hi⟩

/-- **Opposite directions.** A net that is not zero has an instruction of both kinds, with one
amount. -/
theorem netted_reversed (tenantID : UUID) (tenantName : String) (n : CurrencyNet) (h : n.net ≠ 0) :
    ∃ i j, nettedInstruction ⟨n.currency, tenantID, tenantName, n.net⟩ = some i ∧
      netInstruction tenantName n = some j ∧
      i.tenantID = tenantID ∧ i.currency = n.currency ∧ j.currency = n.currency ∧
      i.amount = j.amount ∧ i.direction ≠ j.direction := by
  unfold nettedInstruction netInstruction
  rw [if_neg h, if_neg h]
  rcases lt_or_gt_of_ne h with hneg | hpos
  · rw [if_pos hneg, if_neg hneg.le.not_gt]
    exact ⟨_, _, rfl, rfl, rfl, rfl, rfl, rfl, nofun⟩
  · rw [if_neg hpos.le.not_gt, if_pos hpos]
    exact ⟨_, _, rfl, rfl, rfl, rfl, rfl, abs_of_pos hpos, nofun⟩

/-! ## Agreement -/

/-- For a net that is not zero there is an instruction on both sides, and any two have the same
direction and amount; for a net of zero there is none. -/
def Agree (netted : List NettedInstruction) : Prop :=
  ∀ s ∈ settlements, ∀ n ∈ s.netByCurrency,
    (n.net ≠ 0 →
      (∃ i ∈ netted, i.tenantID = s.tenantID ∧ i.currency = n.currency) ∧
      (∃ j ∈ netInstructions s, j.currency = n.currency) ∧
      ∀ i ∈ netted, i.tenantID = s.tenantID → i.currency = n.currency →
        ∀ j ∈ netInstructions s, j.currency = n.currency → i.direction = j.direction ∧ i.amount = j.amount) ∧
    (n.net = 0 →
      (∀ i ∈ netted, ¬ (i.tenantID = s.tenantID ∧ i.currency = n.currency)) ∧
      ∀ j ∈ netInstructions s, j.currency ≠ n.currency)

theorem agree_iff_zero :
    Agree settlements (calculateCrossTenantNetting order settlements).nettedInstructions ↔
      ∀ s ∈ settlements, ∀ n ∈ s.netByCurrency, n.net = 0 := by
  constructor
  · intro hagree s hs n hn
    by_contra hne
    obtain ⟨i, j, hi, hj, htenant, hcurrency, hcurrency', -, hdirection⟩ :=
      netted_reversed s.tenantID s.tenantName n hne
    have himem := (mem_netted order settlements i).2 ⟨s, hs, n, hn, hi⟩
    have hjmem : j ∈ netInstructions s := mem_filterMap.2 ⟨n, hn, hj⟩
    have hsame := ((hagree s hs n hn).1 hne).2.2 i himem htenant hcurrency j hjmem hcurrency'
    exact hdirection hsame.1
  · intro hzero s hs n hn
    refine ⟨fun hne => absurd (hzero s hs n hn) hne, fun _ => ⟨fun i hi => ?_, fun j hj => ?_⟩⟩
    · obtain ⟨s', hs', n', hn', hi'⟩ := (mem_netted order settlements i).1 hi
      rw [nettedInstruction, if_pos (hzero s' hs' n' hn')] at hi'
      nomatch hi'
    · obtain ⟨n', hn', hj'⟩ := mem_filterMap.1 hj
      rw [netInstruction, if_pos (hzero s hs n' hn')] at hj'
      nomatch hj'

/-- **Netting agrees with the tenants' own instructions** exactly if every tenant has received as
much as it has sent, in every currency. -/
theorem netting_agrees_iff (order : NettingOrder) (calculations : List Calculation) (settlements : List NetSettlement)
    (hbuilt : List.Forall₂ (fun c s => ∃ rows now reply, (calculateNetSettlement rows c now reply).1 = .ok s)
      calculations settlements) :
    Agree settlements (calculateCrossTenantNetting order settlements).nettedInstructions ↔
      ∀ c ∈ calculations, ∀ aggregates, c.aggregates = some aggregates →
        ∀ currency, inflow currency aggregates = outflow currency aggregates := by
  rw [agree_iff_zero]
  induction hbuilt with
  | nil => simp
  | @cons c s cs ss hc _ ih =>
    obtain ⟨rows, now, reply, hok⟩ := hc
    obtain ⟨tenant, aggregates, -, haggregates, rfl⟩ := calculateNetSettlement_ok hok
    rw [forall_mem_cons, forall_mem_cons, ih, haggregates]
    have hnets : (∀ n ∈ (c.record tenant aggregates).netByCurrency, n.net = 0) ↔
        ∀ as, some aggregates = some as → ∀ currency, inflow currency as = outflow currency as := by
      rw [show (c.record tenant aggregates).netByCurrency = netByCurrencyFromAggregates c.order aggregates from rfl,
        nets_zero_iff]
      constructor
      · intro heq as has
        rwa [← Option.some.inj has]
      · intro heq
        exact heq aggregates rfl
    rw [hnets]

def NettingOrder.plain : NettingOrder where
  currencies := Reading.inserted
  largest :=
    { read := fun l => l.insertionSort fun p q => q.net ≤ p.net
      perm := fun l => l.perm_insertionSort _
      sorted := fun l => (l.pairwise_insertionSort _).imp not_lt.2 }

def daily : Calculation where
  tenantID := 1
  periodStart := 0
  periodEnd := day
  tenant := some ⟨1, "Fincra", true, .netSettlement, {}⟩
  aggregates := some aggregates
  order := Reading.inserted
  id := 7

def oneWay : Calculation := daily [⟨"GBP", "NGN", 100, 200000, 1, 0⟩]

def bothWays : Calculation := daily [⟨"GBP", "NGN", 100, 200000, 1, 0⟩, ⟨"NGN", "GBP", 200000, 100, 1, 0⟩]

theorem bothWays_agree :
    ∃ s, (calculateNetSettlement [] bothWays 0 .ok).1 = .ok s ∧
      Agree [s] (calculateCrossTenantNetting .plain [s]).nettedInstructions := by
  refine ⟨_, rfl, (netting_agrees_iff .plain [bothWays] _ (.cons ⟨[], 0, .ok, rfl⟩ .nil)).2 ?_⟩
  rintro c hc aggregates haggregates currency
  rw [mem_singleton.1 hc] at haggregates
  rw [← Option.some.inj haggregates]
  by_cases hgbp : "GBP" = currency <;> by_cases hngn : "NGN" = currency <;>
    simp [inflow, outflow, groupSum, hgbp, hngn, add_comm]

/-- Of the 100 GBP the settlement says that the tenant owes them, and the netting that Settla
does; with the 200000 NGN it is the other way round. -/
theorem oneWay_reversed :
    ∃ s, (calculateNetSettlement [] oneWay 0 .ok).1 = .ok s ∧
      s.instructions.map (fun j => (j.currency, j.direction, j.amount)) =
        [("GBP", .tenantOwesSettla, 100), ("NGN", .settlaOwesTenant, 200000)] ∧
      (calculateCrossTenantNetting .plain [s]).nettedInstructions.map (fun i => (i.currency, i.direction, i.amount)) =
        [("GBP", .settlaOwesTenant, 100), ("NGN", .tenantOwesSettla, 200000)] ∧
      ¬ Agree [s] (calculateCrossTenantNetting .plain [s]).nettedInstructions :=
  ⟨_, rfl, by decide +kernel, by decide +kernel, (agree_iff_zero .plain _).not.2 (by decide +kernel)⟩

end Settla.Settlement
