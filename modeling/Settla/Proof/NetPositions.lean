import Settla.Proof.Netting

/-!
# Net positions

`netByCurrencyFromAggregates` fills a map of pointers in one pass over the corridors, and reads it in
some order. A corridor within one currency changes the same entry twice.
-/

namespace Settla.Settlement

open Lib Lib.Keyed List

/-! ## The nets -/

variable {aggregates aggregates' : List CorridorAggregate}

variable (order : Reading (Currency × CurrencyNet))

theorem currencies_eq (aggregates : List CorridorAggregate) :
    (netByCurrencyFromAggregates order aggregates).map (·.currency) =
      (order.read (nets aggregates)).map Prod.fst := by
  unfold netByCurrencyFromAggregates
  rw [map_map]
  refine map_congr_left fun e he => ?_
  -- an entry has its key as its currency
  have hmem : e ∈ nets aggregates := order.mem.1 he
  rw [nets_eq] at hmem
  have hvalue := ((mem_tally _ e.1 e.2).1 hmem).2
  rw [changes_fold] at hvalue
  show e.2.currency = e.1
  rw [hvalue]
  rfl

/-- **Every currency has one net.** -/
theorem nets_once (aggregates : List CorridorAggregate) :
    ((netByCurrencyFromAggregates order aggregates).map (·.currency)).Nodup := by
  rw [currencies_eq, ((order.perm _).map Prod.fst).nodup_iff, nets_eq]
  exact tally_nodup _

/-- **The order of the corridors does not matter**, nor that of the map. -/
theorem nets_order_free (order order' : Reading (Currency × CurrencyNet)) (h : aggregates.Perm aggregates') :
    (netByCurrencyFromAggregates order aggregates).Perm (netByCurrencyFromAggregates order' aggregates') := by
  have hnodup : ∀ o as, (netByCurrencyFromAggregates o as).Nodup := fun o as => (nets_once o as).of_map _
  rw [perm_ext_iff_of_nodup (hnodup _ _) (hnodup _ _)]
  intro n
  have hin : inflow n.currency aggregates = inflow n.currency aggregates' := ((h.filter _).map _).sum_eq
  have hout : outflow n.currency aggregates = outflow n.currency aggregates' := ((h.filter _).map _).sum_eq
  rw [mem_netByCurrency, mem_netByCurrency, hin, hout]
  have hoccurs : (∃ a ∈ aggregates, a.sourceCurrency = n.currency ∨ a.destCurrency = n.currency) ↔
      ∃ a ∈ aggregates', a.sourceCurrency = n.currency ∨ a.destCurrency = n.currency := by
    simp only [h.mem_iff]
  rw [hoccurs]

structure NetsOf (aggregates : List CorridorAggregate) (ns : List CurrencyNet) : Prop where
  once : (ns.map (·.currency)).Nodup
  occurs : ∀ currency, currency ∈ ns.map (·.currency) ↔
    ∃ a ∈ aggregates, a.sourceCurrency = currency ∨ a.destCurrency = currency
  sums : ∀ n ∈ ns, n.inflows = inflow n.currency aggregates ∧ n.outflows = outflow n.currency aggregates ∧
    n.net = n.inflows - n.outflows

theorem netByCurrency_netsOf (aggregates : List CorridorAggregate) :
    NetsOf aggregates (netByCurrencyFromAggregates order aggregates) where
  once := nets_once order aggregates
  occurs := by
    intro currency
    rw [mem_map]
    constructor
    · rintro ⟨n, hn, rfl⟩
      exact ((mem_netByCurrency order aggregates n).1 hn).1
    · intro hoccurs
      let n : CurrencyNet := ⟨currency, inflow currency aggregates, outflow currency aggregates,
        inflow currency aggregates - outflow currency aggregates⟩
      exact ⟨n, (mem_netByCurrency order aggregates n).2 ⟨hoccurs, rfl⟩, rfl⟩
  sums := by
    intro n hn
    obtain ⟨-, hn⟩ := (mem_netByCurrency order aggregates n).1 hn
    rw [hn]
    exact ⟨rfl, rfl, rfl⟩

/-! ## The instructions -/

/-- The amount of an instruction, positive if Settla owes it. -/
def SettlementInstruction.signed (i : SettlementInstruction) : Decimal :=
  match i.direction with
  | .settlaOwesTenant => i.amount
  | .tenantOwesSettla => -i.amount

theorem netInstruction_signed (tenantName : String) (n : CurrencyNet) (h : n.net ≠ 0) :
    ∃ i, netInstruction tenantName n = some i ∧ i.currency = n.currency ∧ i.signed = n.net ∧ 0 < i.amount := by
  unfold netInstruction
  rw [if_neg h]
  rcases lt_or_gt_of_ne h with hneg | hpos
  · rw [if_neg hneg.le.not_gt]
    refine ⟨_, rfl, rfl, ?_, abs_pos.2 h⟩
    show -|n.net| = n.net
    rw [abs_of_neg hneg, neg_neg]
  · rw [if_pos hpos]
    exact ⟨_, rfl, rfl, rfl, hpos⟩

/-- **One instruction for every net that is not zero**, in the order of the nets. -/
theorem instructions_signed (tenantName : String) (ns : List CurrencyNet) :
    List.Forall₂ (fun n i => i.currency = n.currency ∧ i.signed = n.net ∧ 0 < i.amount)
      (ns.filter (·.net ≠ 0)) (ns.filterMap (netInstruction tenantName)) := by
  induction ns with
  | nil => exact .nil
  | cons n ns ih =>
    by_cases hzero : n.net = 0
    · have hnone : netInstruction tenantName n = none := if_pos hzero
      rw [filter_cons_of_neg (by simp [hzero]), filterMap_cons, hnone]
      exact ih
    · obtain ⟨i, hi, hsigned⟩ := netInstruction_signed tenantName n hzero
      rw [filter_cons_of_pos (by simp [hzero]), filterMap_cons, hi]
      exact .cons hsigned ih

/-- The instruction for the fees: none without fees, else the fees in USD to two places. -/
def FeesOf (totalFees : Decimal) (is : List SettlementInstruction) : Prop :=
  if 0 < totalFees then
    ∃ i, is = [i] ∧ i.direction = .tenantOwesSettla ∧ i.currency = "USD" ∧ i.amount = roundPlaces 2 totalFees
  else is = []

theorem feeInstruction_feesOf (totalFees : Decimal) : FeesOf totalFees (feeInstruction totalFees).toList := by
  unfold FeesOf feeInstruction
  split_ifs with hfees
  · exact ⟨_, rfl, rfl, rfl, rfl⟩
  · rfl

/-- **Net positions and instructions**, for all lists of corridors. -/
theorem net_positions (order : Reading (Currency × CurrencyNet)) (aggregates : List CorridorAggregate)
    (tenantName : String) (totalFees : Decimal) :
    NetsOf aggregates (netByCurrencyFromAggregates order aggregates) ∧
      (∀ order' aggregates', aggregates.Perm aggregates' →
        (netByCurrencyFromAggregates order aggregates).Perm (netByCurrencyFromAggregates order' aggregates')) ∧
      ∀ ns, ∃ is fees, generateInstructions tenantName ns totalFees = is ++ fees ∧
        List.Forall₂ (fun n i => i.currency = n.currency ∧ i.signed = n.net ∧ 0 < i.amount)
          (ns.filter (·.net ≠ 0)) is ∧
        FeesOf totalFees fees :=
  ⟨netByCurrency_netsOf order aggregates, fun order' _ h => nets_order_free order order' h, fun ns =>
    ⟨_, _, rfl, instructions_signed tenantName ns, feeInstruction_feesOf totalFees⟩⟩

/-- Two corridors between one currency and itself. -/
example : netByCurrencyFromAggregates Reading.inserted [⟨"USD", "USD", 5, 3, 1, 0⟩, ⟨"USD", "USD", 1, 2, 1, 0⟩] =
    [⟨"USD", 5, 6, -1⟩] := by decide +kernel

end Settla.Settlement
