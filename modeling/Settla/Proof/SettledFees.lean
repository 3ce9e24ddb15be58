import Settla.Core.SettlementStore
import Settla.Proof.Netting

/-!
# Settled fees and charged fees

The fees of a transfer are stored under the names of the Go fields. The query of the settlement
asks for another key, and takes zero where it finds none.
-/

namespace Settla.Settlement

open Lib Lib.Keyed List

def SettledRow.Marshalled (r : SettledRow) : Prop := r.fees = marshalFees r.transfer.fees

theorem marshalled_step (rows : List SettledRow) (w : TransferWrite) (h : ∀ r ∈ rows, r.Marshalled) :
    ∀ r ∈ writeTransfers rows w, r.Marshalled := by
  cases w with
  | create t id => exact forall_mem_snoc h rfl
  | transition id expectedVersion newStatus now =>
    intro r hr
    obtain ⟨r', hr', rfl⟩ := mem_map.1 hr
    split
    · exact h r' hr'
    · exact h r' hr'

/-- **Every row has the marshalled fees of its transfer.** -/
theorem marshalled (writes : List TransferWrite) : ∀ r ∈ run writeTransfers [] writes, r.Marshalled :=
  run_invariant (P := fun rows => ∀ r ∈ rows, SettledRow.Marshalled r) marshalled_step (forall_mem_nil _) writes

/-- **The key of the query is not there.** -/
theorem fees_not_found {r : SettledRow} (h : r.Marshalled) : r.feesUSD = 0 := by
  unfold SettledRow.feesUSD
  rw [h]
  rfl

variable {order : Reading ((Currency × Currency) × List SettledRow)} {rows : List SettledRow} {tenantID : UUID}
  {start finish : Time}

theorem aggregate_fees (h : ∀ r ∈ rows, r.Marshalled) :
    ∀ a ∈ aggregateCompletedTransfersByPeriod order rows tenantID start finish, a.totalFeesUSD = 0 := by
  intro a ha
  obtain ⟨g, hg, rfl⟩ := mem_map.1 ha
  have hgroup := mem_grouped (order.mem.1 hg)
  have hzero : ∀ d ∈ g.2.map (·.feesUSD), d = 0 := by
    intro d hd
    obtain ⟨r, hr, rfl⟩ := mem_map.1 hd
    rw [hgroup] at hr
    exact fees_not_found (h r (mem_of_mem_filter (mem_of_mem_filter hr)))
  rw [sum_eq_zero hzero]
  exact roundPlaces_eq (m := 0) (by simp)

def chargedFees (rows : List SettledRow) (tenantID : UUID) (start finish : Time) : Decimal :=
  ((rows.filter (·.CompletedIn tenantID start finish)).map (·.transfer.fees.totalFeeUSD)).sum

/-- **Settled fees equal charged fees** exactly if the charged fees add up to zero. -/
theorem settled_fees_iff (writes : List TransferWrite) (order : Reading ((Currency × Currency) × List SettledRow))
    (c : Calculation)
    (haggregates : c.aggregates = some (aggregateCompletedTransfersByPeriod order (run writeTransfers [] writes)
      c.tenantID c.periodStart c.periodEnd))
    (settlements : List SettlementRow) (now : Time) (reply : Threads.Reply) (s : NetSettlement)
    (hok : (calculateNetSettlement settlements c now reply).1 = .ok s) :
    s.totalFeesUSD = chargedFees (run writeTransfers [] writes) c.tenantID c.periodStart c.periodEnd ↔
      chargedFees (run writeTransfers [] writes) c.tenantID c.periodStart c.periodEnd = 0 := by
  obtain ⟨tenant, aggregates, -, haggregates', rfl⟩ := calculateNetSettlement_ok hok
  obtain rfl := Option.some.inj (haggregates'.symm.trans haggregates)
  have hzero : (c.record tenant (aggregateCompletedTransfersByPeriod order (run writeTransfers [] writes)
      c.tenantID c.periodStart c.periodEnd)).totalFeesUSD = 0 := by
    apply sum_eq_zero
    intro d hd
    obtain ⟨a, ha, rfl⟩ := mem_map.1 hd
    exact aggregate_fees (marshalled writes) a ha
  rw [hzero]
  exact eq_comm

def charged (fee : Decimal) : Transfer :=
  ⟨0, 1, "", "", .created, 0, "GBP", 100, "NGN", 200000, "USDT", 125, "tron", 2000, ⟨fee, 0, 0, fee⟩, "", "",
    ⟨0, "", "", ""⟩, ⟨"", "", "", "", "", ""⟩, none⟩

def completes (fee : Decimal) : List TransferWrite :=
  [.create (charged fee) 5, .transition 5 0 .completed minute]

def settles (fee : Decimal) : Calculation :=
  daily (aggregateCompletedTransfersByPeriod Reading.inserted (run writeTransfers [] (completes fee)) 1 0 day)

theorem free_transfer_settled :
    ∃ s, (calculateNetSettlement [] (settles 0) 0 .ok).1 = .ok s ∧
      s.totalFeesUSD = chargedFees (run writeTransfers [] (completes 0)) 1 0 day :=
  ⟨_, rfl, (settled_fees_iff (completes 0) Reading.inserted (settles 0) rfl [] 0 .ok _ rfl).2 (by decide +kernel)⟩

theorem fees_lost :
    ∃ s, (calculateNetSettlement [] (settles 5) 0 .ok).1 = .ok s ∧ s.corridors.map (·.transferCount) = [1] ∧
      s.totalFeesUSD = 0 ∧ chargedFees (run writeTransfers [] (completes 5)) 1 0 day = 5 :=
  ⟨_, rfl, by decide +kernel, by decide +kernel, by decide +kernel⟩

end Settla.Settlement
