import Settla.Lib.Hash
import Settla.Lib.Decimal

/-!
# Identifiers and money

Amounts are exact decimals (`shopspring/decimal`), that is rationals; a `NUMERIC(28,8)` column keeps
eight places. Currencies, chains and account codes are open strings in the source.
-/

namespace Settla

open Lib

abbrev UUID := BitVec 128

def UUID.nil : UUID := 0

def hexDigit (n : ℕ) : Char := "0123456789abcdef".toList.getD n '0'

/-- The `n` lowest hexadecimal digits of a number, most significant first. -/
def hexDigits : ℕ → ℕ → List Char
  | 0, _ => []
  | n + 1, x => hexDigits n (x / 16) ++ [hexDigit (x % 16)]

/-- `UUID.String`: 8-4-4-4-12 hexadecimal digits. -/
def UUID.string (u : UUID) : String :=
  let h := hexDigits 32 u.toNat
  String.ofList (h.take 8 ++ '-' :: (h.drop 8).take 4 ++ '-' :: (h.drop 12).take 4 ++
    '-' :: (h.drop 16).take 4 ++ '-' :: h.drop 20)

/-- `uuid.NewSHA1`: sixteen bytes of SHA-1 with version 5 and the RFC 4122 variant written in. -/
def UUID.newSHA1 (space : UUID) (data : String) : UUID :=
  let h := (sha1 (toBytes 16 space.toNat ++ utf8 data)).take 16
  let h := h.set 6 ((h.getD 6 0 &&& 0x0f) ||| 0x50)
  let h := h.set 8 ((h.getD 8 0 &&& 0x3f) ||| 0x80)
  BitVec.ofNat 128 (ofBytes h)

abbrev Currency := String

abbrev CryptoChain := String

abbrev Decimal := ℚ

/-- What a `NUMERIC(28,8)` column stores for an amount. -/
def numeric8 (d : Decimal) : Decimal := roundPlaces 8 d

def supportedCurrencies : List Currency :=
  ["NGN", "USD", "GBP", "EUR", "GHS", "KES", "USDT", "USDC"]

def supportedChains : List CryptoChain :=
  ["ethereum", "tron", "solana", "polygon", "base", "arbitrum"]

structure Money where
  amount : Decimal
  currency : Currency
  deriving DecidableEq

abbrev Time := ℤ

def second : Time := 1000000000

def minute : Time := 60 * second

/-- `strings.ToLower`, on the ASCII codes the currencies and chains are written in. -/
def toLower (s : String) : String := String.ofList (s.toList.map Char.toLower)

def toUpper (s : String) : String := String.ofList (s.toList.map Char.toUpper)

end Settla
