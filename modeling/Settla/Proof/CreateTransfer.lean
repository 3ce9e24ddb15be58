import Settla.Core.CreateTransfer
import Settla.Lib.Checks

/-!
# What a new transfer satisfies

`createTransfer_row` is what the checks of `CreateTransfer` guarantee about the row they let through;
`create_cases` says what a call does to the store.
-/

namespace Settla.Core

open Lib

structure NewRow (tenantID : UUID) (t : Transfer) : Prop where
  tenant : t.tenantID = tenantID
  status : t.status = .created
  version : t.version = 0
  source_nonneg : 0 ≤ t.sourceAmount
  stable_nonneg : 0 ≤ t.stableAmount
  onRampFee_nonneg : 0 ≤ t.fees.onRampFee
  networkFee_nonneg : 0 ≤ t.fees.networkFee
  offRampFee_nonneg : 0 ≤ t.fees.offRampFee
  totalFee : t.fees.totalFeeUSD = t.fees.onRampFee + t.fees.networkFee + t.fees.offRampFee
  totalFee_pos : 0 < t.fees.totalFeeUSD

variable {e : CreateEnv} {req : CreateTransferRequest} {t : Transfer}

theorem quote_validate {q : Quote} (h : Quote.validate q = .ok ()) : 0 < q.stableAmount := by
  simp only [Quote.validate, throw_eq, pure_eq, error_bind, check_eq_ok, not_not] at h
  exact h.2.1

theorem checkQuote_validate {q : Quote} (h : checkQuote e req q = .ok ()) : Quote.validate q = .ok () := by
  simp only [checkQuote, throw_eq, pure_eq, error_bind, check_eq_ok, bind_eq_ok] at h
  obtain ⟨-, -, _, hq, -⟩ := h
  exact hq

theorem checkRequest_amount {tenant : Tenant} (h : checkRequest tenant req = .ok ()) :
    0 < req.sourceAmount := by
  simp only [checkRequest, throw_eq, error_bind, check_eq_ok, not_not] at h
  exact h.2.1

theorem storeRow_eq {row : Transfer} (h : storeRow e t = some row) :
    row = { t with
      id := e.rowID
      version := 0
      sourceAmount := numeric8 t.sourceAmount
      destAmount := numeric8 t.destAmount
      stableAmount := numeric8 t.stableAmount
      fxRate := roundPlaces 12 t.fxRate } := by
  unfold storeRow at h
  split at h
  · exact (Option.some.inj h).symm
  · cases h

variable {entries : List OutboxEntry}

theorem createTransfer_inv {tenantID : UUID} (h : createTransfer e tenantID req = .ok (.row t entries)) :
    ∃ tenant q, checkRequest tenant req = .ok () ∧ resolveQuote e tenantID req = .ok q ∧ checkQuote e req q = .ok () ∧
      checkFees (newTransfer e tenantID req q) = .ok () ∧ storeRow e (newTransfer e tenantID req q) = some t ∧
      entries = setCorrelationID [newOutboxEvent "transfer" e.newID tenantID .transferCreated t.id] e.newID := by
  unfold createTransfer at h
  split at h
  · cases h
  rename_i tenant htenant
  rw [bind_eq_ok] at h
  obtain ⟨_, hreq, h⟩ := h
  dsimp only at h
  split at h
  · cases h
  simp only [createRow, bind_eq_ok] at h
  obtain ⟨_, -, q, hresolve, _, hquote, _, -, _, hfees, h⟩ := h
  split at h
  · cases h
  rename_i row hrow
  cases h
  exact ⟨tenant, q, hreq, hresolve, hquote, hfees, hrow, rfl⟩

/-- **What `CreateTransfer` guarantees about a new row and its event.** -/
theorem createTransfer_row {tenantID : UUID} (h : createTransfer e tenantID req = .ok (.row t entries)) :
    NewRow tenantID t ∧ t.id = e.rowID ∧
      entries = setCorrelationID [newOutboxEvent "transfer" e.newID tenantID .transferCreated t.id] e.newID := by
  -- of the checks only those on the quote and the fees say something about the row
  obtain ⟨tenant, q, hreq, -, hquote, hfees, hrow, rfl⟩ := createTransfer_inv h
  simp only [checkFees, FeeBreakdown.validate, throw_eq, pure_eq, error_bind, bind_eq_ok, check_eq_ok, not_not, not_lt,
    ne_eq, and_true] at hfees
  obtain ⟨_, ⟨hon, hnet, hoff, htotal⟩, -, hzero⟩ := hfees
  have hsource := checkRequest_amount hreq
  have hstable := quote_validate (checkQuote_validate hquote)
  have hpos : 0 < (newTransfer e tenantID req q).fees.totalFeeUSD := lt_of_le_of_ne (by linarith) (Ne.symm hzero)
  rw [storeRow_eq hrow]
  refine ⟨⟨rfl, rfl, rfl, ?_, ?_, hon, hnet, hoff, htotal, hpos⟩, rfl, rfl⟩
  -- a positive amount may round to zero, so the row is only known to be nonnegative
  · exact roundPlaces_nonneg 8 (le_of_lt hsource)
  · exact roundPlaces_nonneg 8 (le_of_lt hstable)

def sampleRequest : CreateTransferRequest :=
  ⟨"", "", "GBP", 1000, "NGN", ⟨UUID.nil, "Ada", "", "GB"⟩, ⟨"Bola", "", "", "", "NG", ""⟩, none⟩

def sampleQuote : Quote :=
  ⟨5, 1, "GBP", 1000, "NGN", 1900000, 1250, 1900, ⟨5, 1, 4, 10⟩, ⟨"tron", "USDT", "ramp", "payout", []⟩, 0⟩

def sampleEnv (rowID : UUID) : CreateEnv where
  getTenant := fun _ => some ⟨true, 0, 0, 0⟩
  getTransferByIdempotencyKey := fun _ _ => none
  countPendingTransfers := fun _ => some 0
  getQuote := fun _ _ => none
  routerQuote := fun _ _ => some sampleQuote
  createQuote := fun _ => true
  hasOnRamp := fun _ => true
  hasOffRamp := fun _ => true
  dailyVolume := fun _ => some 0
  now := 0
  newID := 9
  rowID := rowID

def sampleRow (rowID : UUID) : Transfer :=
  ⟨rowID, 1, "", "", .created, 0, "GBP", 1000, "NGN", 1900000, "USDT", 1250, "tron", 1900, ⟨5, 1, 4, 10⟩, "ramp",
    "payout", sampleRequest.sender, sampleRequest.recipient, some 5⟩

def sampleEntries (rowID : UUID) : List OutboxEntry :=
  setCorrelationID [newOutboxEvent "transfer" 9 1 .transferCreated rowID] 9

theorem sample_created : createTransfer (sampleEnv 7) 1 sampleRequest = .ok (.row (sampleRow 7) (sampleEntries 7)) := by
  decide +kernel

def callAs (tenantID : UUID) (c : EngineCall) : Invocation :=
  ⟨tenantID, ⟨fun _ _ => none, fun _ => some "acme"⟩, c⟩

def ofTenant (c : EngineCall) : Invocation := callAs 1 c

theorem create_cases (s : Store) (e : CreateEnv) (tenantID : UUID) (req : CreateTransferRequest) :
    s.create e tenantID req = s ∨
    ∃ t, NewRow tenantID t ∧ s.transfers t.id = none ∧
      s.create e tenantID req = ⟨Function.update s.transfers t.id (some t), s.outbox ++
        setCorrelationID [newOutboxEvent "transfer" e.newID tenantID .transferCreated t.id] e.newID⟩ := by
  unfold Store.create
  split
  · exact .inl rfl
  · exact .inl rfl
  rename_i t entries h
  obtain ⟨hrow, -, rfl⟩ := createTransfer_row h
  split
  · exact .inl rfl
  · rename_i hnone
    exact .inr ⟨t, hrow, hnone, rfl⟩

end Settla.Core
