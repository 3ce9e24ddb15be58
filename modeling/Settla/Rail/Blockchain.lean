import Mathlib.Data.Nat.Digits.Defs
import Settla.Rail.Provider

/-!
# Chain clients

The clients of Ethereum (and of the chains that work alike), Tron and Solana. Each answers with a status in its own
words.
-/

namespace Settla.Rail

open Lib

/-! ## Ethereum -/

namespace Ethereum

inductive TxStatus
  | pending | confirmed | failed | unknown
  deriving DecidableEq

def TxStatus.string : TxStatus → String
  | .pending => "PENDING"
  | .confirmed => "CONFIRMED"
  | .failed => "FAILED"
  | .unknown => "UNKNOWN"

def TxStatus.verdict : TxStatus → Verdict
  | .confirmed => .finished
  | .failed => .failed
  | _ => .underway

def selectorTransfer : List ℕ := [0xa9, 0x05, 0x9c, 0xbb]

/-- `big.Int.Bytes`: the absolute value, its most significant byte first. -/
def bytes (n : ℤ) : List ℕ := (Nat.digits 256 n.natAbs).reverse

/-- It panics, with `none`, if the amount is longer than the whole data. -/
def encodeERC20Transfer (toAddr : Fin 20 → ℕ) (amount : ℤ) : Option (List ℕ) :=
  let data := selectorTransfer ++ .replicate 12 0 ++ .ofFn toAddr ++ .replicate 32 0
  let amountBytes := bytes amount
  if 68 < amountBytes.length then none
  else some (data.take (68 - amountBytes.length) ++ amountBytes)

def decodeUint256 (result : List ℕ) : ℕ :=
  if result.length < 32 then 0 else Nat.ofDigits 256 (result.take 32).reverse

def toOnChainAmount (amount : Decimal) (decimals : ℕ) : ℤ := intPart (amount * 10 ^ decimals)

/-- The quotient has 16 places. -/
def fromOnChainAmount (amount : ℤ) (decimals : ℕ) : Decimal := roundPlaces 16 (amount / 10 ^ decimals)

/-- The nonces of an address: of its entry (if loaded), of the calls in flight and of the transactions broadcast. -/
structure Nonces where
  entry : Option ℕ := none
  held : List ℕ := []
  sent : List ℕ := []

def pendingNonceAt (sent : List ℕ) : ℕ := ((List.range sent.length).takeWhile (· ∈ sent)).length

/-- A step of some call: it takes a nonce (unless the node does not answer), and with it broadcasts, or fails at
building, signing or broadcasting. -/
inductive SendStep
  | next (answers : Bool)
  | broadcast (nonce : ℕ)
  | fail (nonce : ℕ)

/-- `Next` and `Reset` work under the lock of the entry. -/
def Nonces.step (a : Nonces) : SendStep → Nonces
  | .next answers =>
    match a.entry <|> if answers then some (pendingNonceAt a.sent) else none with
    | none => a
    | some nonce => { a with entry := some (nonce + 1), held := a.held ++ [nonce] }
  | .broadcast nonce =>
    if nonce ∈ a.held then { a with held := a.held.erase nonce, sent := a.sent ++ [nonce] } else a
  | .fail nonce => if nonce ∈ a.held then { a with entry := none, held := a.held.erase nonce } else a

end Ethereum

/-! ## Tron -/

namespace Tron

inductive TxStatus
  | pending | confirming | confirmed | failed
  deriving DecidableEq

def TxStatus.string : TxStatus → String
  | .pending => "pending"
  | .confirming => "confirming"
  | .confirmed => "confirmed"
  | .failed => "failed"

def TxStatus.verdict : TxStatus → Verdict
  | .confirmed => .finished
  | .failed => .failed
  | _ => .underway

end Tron

/-! ## Solana -/

namespace Solana

inductive TxStatus
  | pending | confirmed | failed
  deriving DecidableEq

def TxStatus.string : TxStatus → String
  | .pending => "pending"
  | .confirmed => "confirmed"
  | .failed => "failed"

def TxStatus.verdict : TxStatus → Verdict
  | .confirmed => .finished
  | .failed => .failed
  | _ => .underway

inductive AmountErr
  | notPositive
  | overflows (raw : Decimal)

def decimalToRawAmount (amount : Decimal) (decimals : ℕ) : Except AmountErr ℕ :=
  if amount ≤ 0 then .error .notPositive
  else
    let raw := amount * 10 ^ decimals
    if intPart raw < 2 ^ 64 then .ok (intPart raw).toNat else .error (.overflows raw)

def rawAmountToDecimal (rawAmount : ℤ) (decimals : ℕ) : Decimal := rawAmount / 10 ^ decimals

end Solana

end Settla.Rail
