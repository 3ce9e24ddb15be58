import Settla.Core.DepositStore

/-!
# The IDs of a deposit session
-/

namespace Settla.DepositStore

variable {t t' : Tables} {locked : PoolRow → Bool} {newID rowID tenantID : UUID} {chain : CryptoChain}
  {token : String} {amount : Decimal} {pref : SettlementPreference} {s : DepositSession}

/-- Whoever dispenses with the nil ID leaves no session on the address. -/
theorem dispenseAddress_nil {a : PoolRow} (h : t.dispenseAddress locked tenantID chain UUID.nil = some (a, t')) :
    a.chain = chain ∧ a ∈ t'.pool ∧ (∀ r ∈ t'.pool, r.chain = chain → r.address = a.address → r = a) ∧
      a.dispensed = true ∧ a.sessionID = none ∧ t'.outbox = t.outbox := by
  obtain ⟨b, hb, h⟩ := Option.bind_eq_some_iff.1 h
  cases h
  obtain ⟨hpool, hb⟩ := List.mem_filter.1 (List.argmin_mem hb)
  have hchain : b.chain = chain := by simp only [Bool.and_eq_true, decide_eq_true_eq] at hb; exact hb.1.1.2
  refine ⟨hchain, List.mem_map.2 ⟨b, hpool, if_pos ⟨rfl, rfl⟩⟩, ?_, rfl, rfl, rfl⟩
  intro r hr hrchain hraddr
  obtain ⟨c, -, rfl⟩ := List.mem_map.1 hr
  by_cases hc : c.chain = b.chain ∧ c.address = b.address
  · exact if_pos hc
  · rw [if_neg hc] at hrchain hraddr
    exact absurd ⟨hrchain.trans hchain.symm, hraddr⟩ hc

theorem createdEntries_ids (s : DepositSession) (address : String) :
    ∀ e ∈ createdEntries s address, e.aggregateID = s.id ∧ e.body.sessionID = s.id := by
  simp [createdEntries, CreatedBody.sessionID]

/-- The row, the caller and the address index have the ID of the database. The pool has none, and the outbox
has the one the engine drew. -/
theorem session_identity (h : t.createSession locked newID rowID tenantID chain token amount pref = some (s, t')) :
    s.id = rowID ∧ s ∈ t'.sessions ∧ s.chain = chain ∧
      ∃ address, (∃ i ∈ t'.index, i.chain = chain ∧ i.address = address ∧ i.sessionID = rowID) ∧
        (∃ a ∈ t'.pool, a.chain = chain ∧ a.address = address ∧ a.dispensed = true) ∧
        (∀ a ∈ t'.pool, a.chain = chain → a.address = address → a.sessionID = none) ∧
        ∃ es, t'.outbox = t.outbox ++ es ∧ es.length = 4 ∧
          ∀ e ∈ es, (e.aggregateID = rowID ↔ newID = rowID ∨ newID = UUID.nil) ∧
            (e.body.sessionID = rowID ↔ newID = rowID) := by
  obtain ⟨⟨a, t₁⟩, hdisp, h⟩ := Option.bind_eq_some_iff.1 h
  obtain ⟨hchain, hmem, honly, hdispensed, hnone, hout⟩ := dispenseAddress_nil hdisp
  simp only [Tables.createSessionWithOutbox] at h
  split at h
  · cases h
  cases h
  refine ⟨rfl, List.mem_append_right _ (List.mem_singleton_self _), rfl, a.address,
    ⟨_, List.mem_append_right _ (List.mem_singleton_self _), rfl, rfl, rfl⟩, ⟨a, hmem, hchain, rfl, hdispensed⟩,
    fun r hr hc ha => honly r hr hc ha ▸ hnone, _, by rw [hout], by simp [createdEntries], ?_⟩
  intro e he
  obtain ⟨c, hc, rfl⟩ := List.mem_map.1 he
  obtain ⟨hagg, hbody⟩ := createdEntries_ids _ _ c hc
  rw [apply_ite CreatedEntry.aggregateID, apply_ite CreatedEntry.body, ite_self, hagg, hbody]
  refine ⟨?_, Iff.rfl⟩
  split
  · exact iff_of_true rfl (.inr ‹_›)
  · exact (or_iff_left ‹_›).symm

/-- A session on the only address of the pool; the engine draws 1, and the database 2. -/
def created : Option (DepositSession × Tables) :=
  Tables.createSession ⟨[], [⟨⟨7, "tron", "TA", 0, false⟩, none⟩], [], []⟩ (fun _ => false) 1 2 7 "tron" "USDT" 10 .hold

theorem created_row : created.isSome ∧ ∀ p ∈ created, p.1.id = 2 := ⟨rfl, fun _ h => (session_identity h).1⟩

theorem ids_differ : created.map (fun p => (p.1.id, p.2.pool.map (·.sessionID),
    p.2.outbox.map fun e => (e.aggregateID, e.body.sessionID))) = some (2, [none], List.replicate 4 (1, 1)) :=
  rfl

end Settla.DepositStore
