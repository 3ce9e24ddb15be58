import Settla.Lib.Keyed
import Settla.Node.ChainMonitor
import Settla.Proof.Overflow

/-!
# What the chain monitor sees

The addresses come from the pool of the tenant `uuid.Nil`, so those of no other tenant are watched. The window of
the Tron poller is as long as the blocks to be scanned, but ends now and not at the last of them.
-/

namespace Settla.ChainMonitor

open Treasury List

/-! ## Watched addresses -/

theorem exists_key_foldl (key : String) (xs infos : List AddressInfo) :
    (∃ i ∈ xs.foldl put infos, i.key = key) ↔ (∃ i ∈ infos, i.key = key) ∨ ∃ i ∈ xs, i.key = key := by
  induction xs generalizing infos with
  | nil => simp
  | cons x xs ih =>
    rw [foldl_cons, ih]
    by_cases hx : x.key = key <;> grind [put]

theorem foldl_add (xs : List AddressInfo) (s : AddressSet) :
    xs.foldl AddressSet.add s = { s with mutable := xs.foldl put s.mutable } := by
  induction xs generalizing s with
  | nil => rfl
  | cons x xs ih => exact ih (s.add x)

/-- A row that is listed: dispensed, of the tenant `uuid.Nil`, and with fewer than 10000 rows of the tenant on its
chain that have a lower index. -/
structure AddressPool.Listed (pool : AddressPool) (r : PoolAddress) : Prop where
  mem : r ∈ pool.rows
  tenant : r.tenantID = UUID.nil
  dispensed : r.dispensed = true
  first : pool.rows.countP (fun r' => r'.derivationIndex < r.derivationIndex &&
    decide (r'.tenantID = UUID.nil ∧ r'.chain = r.chain)) < 10000

theorem mem_listPoolAddresses (pool : AddressPool) (tenantID : UUID) (chain : CryptoChain) (limit : ℕ) (r : PoolAddress) :
    r ∈ listPoolAddressesByTenant pool tenantID chain limit 0 ↔ r ∈ pool.rows ∧ (r.tenantID = tenantID ∧ r.chain = chain) ∧
      pool.rows.countP (fun r' => r'.derivationIndex < r.derivationIndex &&
        decide (r'.tenantID = tenantID ∧ r'.chain = chain)) < limit := by
  have hperm := mergeSort_perm (pool.rows.filter fun r => r.tenantID = tenantID ∧ r.chain = chain)
    fun r r' => r.derivationIndex ≤ r'.derivationIndex
  have hmem : ∀ r ∈ (pool.rows.filter fun r => r.tenantID = tenantID ∧ r.chain = chain).mergeSort
      (fun r r' => r.derivationIndex ≤ r'.derivationIndex), r ∈ pool.rows ∧ r.tenantID = tenantID ∧ r.chain = chain := by
    simp
  -- rows of one tenant and chain differ in their index
  have hdiffer := (hperm.pairwise_iff fun h => h.symm).2 ((pairwise_map.1 pool.unique).filter _)
  have htrans : ∀ r r' r'' : PoolAddress, decide (r.derivationIndex ≤ r'.derivationIndex) = true →
      decide (r'.derivationIndex ≤ r''.derivationIndex) = true → decide (r.derivationIndex ≤ r''.derivationIndex) = true := by
    simpa using fun _ _ _ => Nat.le_trans
  have hle := pairwise_mergeSort htrans (fun _ _ => by simpa using Nat.le_total _ _)
    (pool.rows.filter fun r => r.tenantID = tenantID ∧ r.chain = chain)
  have hsorted := (hle.and hdiffer).imp_of_mem fun {r r'} hr hr' h => lt_of_le_of_ne (of_decide_eq_true h.1) fun heq =>
    h.2 (by rw [(hmem r hr).2.1, (hmem r hr).2.2, (hmem r' hr').2.1, (hmem r' hr').2.2, heq])
  unfold listPoolAddressesByTenant
  rw [drop_zero, Lib.Keyed.mem_take_sorted _ hsorted, hperm.countP_eq, countP_filter, mem_mergeSort, mem_filter,
    and_assoc, decide_eq_true_iff]

variable {pool : AddressPool} {fails : CryptoChain → Bool} {pollers : List CryptoChain} {key : String}

theorem mem_listActiveAddresses {chain : CryptoChain} {info : AddressInfo} :
    info ∈ listActiveAddresses pool chain ↔ ∃ r, pool.Listed r ∧ r.chain = chain ∧ ⟨r.chain, r.address, r.tenantID⟩ = info := by
  unfold listActiveAddresses
  simp only [mem_map, mem_filter, mem_listPoolAddresses]
  constructor
  · rintro ⟨r, ⟨⟨hmem, ⟨htenant, rfl⟩, hfirst⟩, hdispensed⟩, hinfo⟩
    exact ⟨r, ⟨hmem, htenant, hdispensed, hfirst⟩, rfl, hinfo⟩
  · rintro ⟨r, ⟨hmem, htenant, hdispensed, hfirst⟩, rfl, hinfo⟩
    exact ⟨r, ⟨⟨hmem, ⟨htenant, rfl⟩, hfirst⟩, hdispensed⟩, hinfo⟩

theorem exists_listed {chains : List CryptoChain} :
    (∃ c ∈ chains, ∃ i ∈ listActiveAddresses pool c, i.key = key) ↔
      ∃ r, pool.Listed r ∧ r.chain ∈ chains ∧ addressKey r.chain r.address = key := by
  constructor
  · rintro ⟨c, hc, i, hi, hkey⟩
    obtain ⟨r, hr, rfl, rfl⟩ := mem_listActiveAddresses.1 hi
    exact ⟨r, hr, hc, hkey⟩
  · rintro ⟨r, hr, hc, hkey⟩
    exact ⟨r.chain, hc, _, mem_listActiveAddresses.2 ⟨r, hr, rfl, rfl⟩, hkey⟩

theorem listing_eq {chain : CryptoChain} {infos : List AddressInfo} (h : listing pool fails chain = some infos) :
    infos = listActiveAddresses pool chain := by
  unfold listing at h
  split at h
  · cases h
  · exact (Option.some.inj h).symm

theorem synced_iff {s : AddressSet} (h : (syncAddresses (listing pool fails) pollers s).2 = true) :
    (∃ i ∈ (syncAddresses (listing pool fails) pollers s).1.snapshot, i.key = key) ↔
      (∃ i ∈ s.mutable, i.key = key) ∨ ∃ c ∈ pollers, ∃ i ∈ listActiveAddresses pool c, i.key = key := by
  induction pollers generalizing s with
  | nil => simp [syncAddresses, AddressSet.publish]
  | cons chain pollers ih =>
    unfold syncAddresses at h ⊢
    split at h
    · cases h
    · rename_i addresses hlist
      rw [ih h, foldl_add, exists_key_foldl, listing_eq hlist]
      simp [or_assoc]

theorem listed_iff {addresses : List (List AddressInfo)} (h : pollers.mapM (listing pool fails) = some addresses) :
    (∃ i ∈ addresses.flatten, i.key = key) ↔ ∃ c ∈ pollers, ∃ i ∈ listActiveAddresses pool c, i.key = key := by
  induction pollers generalizing addresses with
  | nil => cases h; simp
  | cons chain pollers ih =>
    rw [mapM_cons] at h
    obtain ⟨infos, hinfos, h⟩ := Option.bind_eq_some_iff.1 h
    obtain ⟨rest, hrest, ⟨⟩⟩ := Option.bind_eq_some_iff.1 h
    simp [or_and_right, exists_or, ← ih hrest, listing_eq hinfos]

/-- **What is watched.** After a synchronisation or a reconciliation that succeeds, an address is watched exactly
if the pool has it on a polled chain, dispensed, for the tenant `uuid.Nil` and among the first 10000 by index, or
if it was in the set before a synchronisation. -/
theorem watched_iff (pool : AddressPool) (fails : CryptoChain → Bool) (pollers : List CryptoChain)
    (s : AddressSet) (chain : CryptoChain) (address : String) :
    let list := listing pool fails
    let listed := ∃ r, pool.Listed r ∧ r.chain ∈ pollers ∧ addressKey r.chain r.address = addressKey chain address
    ((syncAddresses list pollers s).2 = true → ((syncAddresses list pollers s).1.contains chain address = true ↔
      (∃ i ∈ s.mutable, i.key = addressKey chain address) ∨ listed)) ∧
    ((reconcileAddresses list pollers s).2 = true →
      ((reconcileAddresses list pollers s).1.contains chain address = true ↔ listed)) := by
  refine ⟨fun h => by simpa [AddressSet.contains, exists_listed] using synced_iff h, fun h => ?_⟩
  unfold reconcileAddresses at h ⊢
  split at h
  · cases h
  · rename_i addresses hall
    have hkeys := exists_key_foldl (addressKey chain address) addresses.flatten []
    rw [listed_iff hall, exists_listed] at hkeys
    simpa [AddressSet.contains, AddressSet.replace, AddressSet.publish] using hkeys

/-- **An address of a tenant is not watched**, though it is dispensed and its chain is polled. -/
theorem tenant_unwatched :
    let pool : AddressPool := ⟨[⟨1, "ethereum", "0xaa", 0, true⟩], by decide⟩
    let list := listing pool fun _ => false
    syncAddresses list ["ethereum"] ⟨[], []⟩ = (⟨[], []⟩, true) ∧
      reconcileAddresses list ["ethereum"] ⟨[], []⟩ = (⟨[], []⟩, true) := by
  decide +kernel

/-! ## The window of the Tron poller -/

/-- The time of a block in milliseconds, when blocks are three seconds apart. -/
def blockTime (genesis n : ℤ) : ℤ := genesis + 3000 * n

/-- **The window reaches back far enough only without confirmations**, or with one in the millisecond of the latest
block. Then a query sees every transfer since the checkpoint, if no more than its limit are in the window, whatever
else the service answers. -/
theorem tron_window_iff (genesis lastBlock current sinceHead : ℤ) (confirmations : ℕ) (hlast : 0 < lastBlock)
    (hhead : 0 ≤ sinceHead ∧ sinceHead < 3 * second)
    (hfits : InInt64 (-(current - confirmations - lastBlock) * 3 * second)) :
    let window := minTimestamp (blockTime genesis current * 1000000 + sinceHead) lastBlock (current - confirmations)
    (window ≤ blockTime genesis (lastBlock + 1) ↔ confirmations = 0 ∨ confirmations = 1 ∧ sinceHead < 1000000) ∧
    ∀ confirmed address contractAddress answer, TRC20Answer confirmed address contractAddress window 200 answer →
      (queried confirmed address contractAddress window).length ≤ 200 → window ≤ blockTime genesis (lastBlock + 1) →
      ∀ t ∈ confirmed, t.target = address → t.tokenAddress = contractAddress →
        blockTime genesis (lastBlock + 1) ≤ t.blockTimestamp → t ∈ answer := by
  refine ⟨?_, fun confirmed address contractAddress answer hanswer hlimit hwindow t ht hto htoken htime => ?_⟩
  · unfold minTimestamp blockTime second at *
    rw [if_pos hlast, wrap64_eq hfits]
    omega
  · refine hanswer.all hlimit t (mem_filter.2 ⟨ht, ?_⟩)
    exact decide_eq_true ⟨.inr hto, htoken, fun _ => hwindow.trans htime⟩

theorem tron_window_unconfirmed :
    minTimestamp (blockTime 0 1020 * 1000000 + 0) 1000 (1020 - (0 : ℕ)) ≤ blockTime 0 (1000 + 1) :=
  (tron_window_iff 0 1000 1020 0 0 (by decide) (by decide) (by decide +kernel)).1.2 (.inl rfl)

/-- **A confirmed transfer outside the window**: with 19 confirmations it is 57 seconds old, and the window
reaches back three. -/
theorem tron_window_misses :
    let window := minTimestamp (blockTime 0 1020 * 1000000) 1000 (1020 - 19)
    let t : TRC20Transfer := ⟨"tx", "sender", "address", "1000000", "USDT", blockTime 0 1001⟩
    ¬ window ≤ blockTime 0 1001 ∧ ∀ answer, TRC20Answer [t] "address" "USDT" window 200 answer → answer = [] := by
  refine ⟨by decide +kernel, fun answer h => eq_nil_iff_forall_not_mem.2 fun x hx => ?_⟩
  have hnone : queried [⟨"tx", "sender", "address", "1000000", "USDT", blockTime 0 1001⟩] "address" "USDT"
      (minTimestamp (blockTime 0 1020 * 1000000) 1000 (1020 - 19)) = [] := by decide +kernel
  exact not_mem_nil (hnone ▸ h.queried x hx)

end Settla.ChainMonitor
