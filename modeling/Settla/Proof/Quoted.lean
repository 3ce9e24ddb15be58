import Settla.Proof.CreateTransfer
import Settla.Proof.Engine

/-!
# A transfer and the quote it was made from

`CreateTransfer` takes the amount from the request and the prices from the quote. It compares the
currencies of the two, never the amounts, and `FundTransfer` then reserves what the request asked for.
-/

namespace Settla.Core

open Lib

variable {e : CreateEnv} {tenantID id : UUID} {req : CreateTransferRequest} {q : Quote} {t : Transfer}
  {entries : List OutboxEntry}

/-- A transfer has the amount and the currencies its quote was priced for, and funding it
reserves that amount. -/
structure Priced (q : Quote) (t : Transfer) : Prop where
  sourceAmount : t.sourceAmount = q.sourceAmount
  sourceCurrency : t.sourceCurrency = q.sourceCurrency
  destCurrency : t.destCurrency = q.destCurrency
  reserved : ∀ st es p, fundTransfer t = .transition st es → .treasuryReserve p ∈ intentsOf es →
    p.amount = q.sourceAmount ∧ p.currency = q.sourceCurrency

/-- The prices of a transfer are those of the quote, rounded to their columns. -/
structure Copied (q : Quote) (t : Transfer) : Prop where
  destAmount : t.destAmount = numeric8 q.destAmount
  stableAmount : t.stableAmount = numeric8 q.stableAmount
  fxRate : t.fxRate = roundPlaces 12 q.fxRate
  fees : t.fees = q.fees

theorem resolveQuote_named (hid : req.quoteID = some id) (hget : e.getQuote tenantID id = some q) {q' : Quote}
    (h : resolveQuote e tenantID req = .ok q') : q' = q := by
  unfold resolveQuote at h
  rw [hid] at h
  dsimp only at h
  rw [hget] at h
  simp only [throw_eq, pure_eq, error_bind, check_eq_ok, Except.ok.injEq] at h
  exact h.2.2.symm

theorem fund_reserves {st : TransferStatus} {es : List OutboxEntry} {p : TreasuryReservePayload}
    (h : fundTransfer t = .transition st es) (hp : .treasuryReserve p ∈ intentsOf es) :
    p.amount = t.sourceAmount ∧ p.currency = t.sourceCurrency := by
  unfold fundTransfer notInStatus at h
  split at h
  · cases h
  · cases h
    rw [intentsOf_outboxEntries, List.mem_singleton] at hp
    cases hp
    exact ⟨rfl, rfl⟩

theorem createTransfer_quoted (hid : req.quoteID = some id) (hget : e.getQuote tenantID id = some q)
    (h : createTransfer e tenantID req = .ok (.row t entries)) :
    t.sourceAmount = numeric8 req.sourceAmount ∧ t.sourceCurrency = q.sourceCurrency ∧
      t.destCurrency = q.destCurrency ∧ Copied q t := by
  obtain ⟨_, q', -, hresolve, hquote, -, hrow, -⟩ := createTransfer_inv h
  obtain rfl := resolveQuote_named hid hget hresolve
  simp only [checkQuote, throw_eq, pure_eq, error_bind, check_eq_ok, ne_eq, not_not] at hquote
  rw [storeRow_eq hrow]
  exact ⟨rfl, hquote.1.symm, hquote.2.1.symm, rfl, rfl, rfl, rfl⟩

/-- **The prices belong to the reserved amount exactly if the request names the amount of the
quote.** -/
theorem priced_iff (hid : req.quoteID = some id) (hget : e.getQuote tenantID id = some q)
    (h : createTransfer e tenantID req = .ok (.row t entries)) :
    Copied q t ∧ (Priced q t ↔ numeric8 req.sourceAmount = q.sourceAmount) := by
  obtain ⟨hamount, hsource, hdest, hcopied⟩ := createTransfer_quoted hid hget h
  refine ⟨hcopied, fun hp => hamount.symm.trans hp.sourceAmount, fun heq => ?_⟩
  have hsame : t.sourceAmount = q.sourceAmount := hamount.trans heq
  refine ⟨hsame, hsource, hdest, fun st es p hfund hp => ?_⟩
  obtain ⟨hpamount, hpcurrency⟩ := fund_reserves hfund hp
  exact ⟨hpamount.trans hsame, hpcurrency.trans hsource⟩

def quotedEnv : CreateEnv := { sampleEnv 7 with getQuote := fun _ _ => some sampleQuote }

def quotedRequest (amount : Decimal) : CreateTransferRequest :=
  { sampleRequest with sourceAmount := amount, quoteID := some 5 }

theorem quoted_priced : Copied sampleQuote (sampleRow 7) ∧
    (Priced sampleQuote (sampleRow 7) ↔ numeric8 (quotedRequest 1000).sourceAmount = sampleQuote.sourceAmount) :=
  priced_iff (e := quotedEnv) rfl rfl
    (by decide +kernel : createTransfer quotedEnv 1 (quotedRequest 1000) = .ok (.row (sampleRow 7) (sampleEntries 7)))

/-- **Twenty pounds are accepted under the quote of a thousand**, and pay out its 1900000 naira. -/
theorem quote_not_binding :
    createTransfer quotedEnv 1 (quotedRequest 20) =
      .ok (.row { sampleRow 7 with sourceAmount := 20 } (sampleEntries 7)) ∧
    sampleQuote.sourceAmount = 1000 ∧ (sampleRow 7).destAmount = sampleQuote.destAmount ∧
    fundTransfer { sampleRow 7 with sourceAmount := 20 } =
      .transition .funded (outboxEntries { sampleRow 7 with sourceAmount := 20 }
        [.treasuryReserve ⟨7, 1, "GBP", 20, "bank:gbp"⟩] (some .transferFunded)) := by
  refine ⟨by decide +kernel, by decide +kernel, by decide +kernel, rfl⟩

end Settla.Core
