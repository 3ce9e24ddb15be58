import Settla.Rail.Payout

/-!
# What the off-ramp pays out

It pays as many units of the currency as coins were sold, and always pays. The transaction is looked for on
the chain of the token.
-/

namespace Settla.Rail

variable {p : OffRampProvider} {e : RampEnv} {meanwhile : List OffRampProgress} {req : OffRampRequest}

theorem OffRampProvider.Starts.amount_pos (h : p.Starts e meanwhile req) : 0 < req.amount := by
  by_contra hle
  have hok := h.2
  unfold execute at hok
  rw [if_pos (not_lt.1 hle)] at hok
  split_ifs at hok <;> cases hok

/-- A rate is within the slippage limit of the oracle's, less the spread. -/
def Near (oracle rate : Decimal) : Prop :=
  |rate - oracle * (1 - 30 / 10000)| ≤ maxSlippage * (oracle * (1 - 30 / 10000))

/-- A client asked for the transaction saw it confirmed. -/
def PayoutEnv.Confirmed (v : PayoutEnv) (req : OffRampRequest) : Prop :=
  ∃ polls, v.registry.bind (· (preferredChainForToken req.fromCurrency)) = some polls ∧ sawConfirmed polls

/-- The payout is what was sold, for coins that have come on the chain of the transfer. -/
structure PaidRight (e : RampEnv) (v : PayoutEnv) (chain : CryptoChain) (req : OffRampRequest)
    (tx : FiatTransaction) : Prop where
  currency : tx.currency = req.toCurrency
  amount : ∃ oracle rate, e.rate = .ok oracle ∧ tx.amount = req.amount * rate ∧ Near oracle rate
  received : req.sourceTxHash ≠ "" → (v.registry.bind (· chain)).isSome → v.Confirmed req

/-- **When a payout is right.** Every request that is new and accepted is paid out. The payout is right
just if one unit is a fair price of the dollar, and the transaction, if it could be looked for on the chain of
the transfer, was seen confirmed on the chain of the token. -/
theorem payout_right_iff (p : OffRampProvider) (e : RampEnv) (meanwhile : List OffRampProgress) (v : PayoutEnv)
    (chain : CryptoChain) (req : OffRampRequest) (hnew : p.Starts e meanwhile req) :
    ∃ tx, (runOffRamp v req).2 = some tx ∧ (PaidRight e v chain req tx ↔
      (∃ oracle, e.rate = .ok oracle ∧ Near oracle 1) ∧
        (req.sourceTxHash ≠ "" → (v.registry.bind (· chain)).isSome → v.Confirmed req)) := by
  have hpos := hnew.amount_pos
  refine ⟨_, if_neg hpos.not_ge, fun h => ⟨?_, h.received⟩, fun ⟨⟨oracle, hrate, hnear⟩, hreceived⟩ => ?_⟩
  · obtain ⟨oracle, rate, hrate, hamount, hnear⟩ := h.amount
    obtain rfl : rate = 1 := (left_eq_mul₀ hpos.ne').1 hamount
    exact ⟨oracle, hrate, hnear⟩
  · exact ⟨rfl, ⟨oracle, 1, hrate, (mul_one _).symm, hnear⟩, hreceived⟩

def emptyOffRamp : OffRampProvider := ⟨fun _ => none, fun _ => none⟩

def sale (toCurrency : Currency) : OffRampRequest := ⟨100, "USDC", toCurrency, ⟨"", "", "", "", "", ""⟩, "", "0x1", 0⟩

/-- The transaction is on ethereum, pending. There is no client for base. -/
def pendingEnv : PayoutEnv := ⟨some fun chain => if chain = "ethereum" then some [some "pending"] else none, "1", "2", true⟩

theorem payout_right_dollars : let v := { pendingEnv with registry := some fun _ => some [none, some "confirmed"] }
    ∃ tx, (runOffRamp v (sale "USD")).2 = some tx ∧ PaidRight ⟨.ok 1, .ok (), "3"⟩ v "base" (sale "USD") tx := by
  intro v
  obtain ⟨tx, htx, hright⟩ := payout_right_iff emptyOffRamp ⟨.ok 1, .ok (), "3"⟩ [] v "base" (sale "USD")
    ⟨rfl, by decide +kernel⟩
  refine ⟨tx, htx, hright.2 ⟨⟨1, rfl, ?_⟩, fun _ _ => ⟨_, rfl, by decide⟩⟩⟩
  unfold Near
  decide +kernel

/-- **A hundred USDC are sold for a hundred naira**, at a rate of 1755, and no one has seen them. -/
theorem payout_unconverted : emptyOffRamp.Starts ⟨.ok 1755, .ok (), "3"⟩ [] (sale "NGN") ∧
    (runOffRamp pendingEnv (sale "NGN")).2 = some ⟨100, "NGN", "offramp-2"⟩ ∧
    (pendingEnv.registry.bind (· "ethereum")).isSome ∧ ¬ pendingEnv.Confirmed (sale "NGN") ∧ ¬ Near 1755 1 := by
  refine ⟨⟨rfl, by decide +kernel⟩, by decide +kernel, by decide, (fun ⟨_, h, _⟩ => nomatch h), ?_⟩
  unfold Near
  decide +kernel

end Settla.Rail
