import Settla.Domain.Types

/-!
# Fee schedules

`FeeSchedule.CalculateFee`: basis points of an amount, rounded to eight places and clamped; zero
bounds are no bounds. `Validate` compares two of the pairs of bounds that are used together.
-/

namespace Settla

open Lib

structure FeeSchedule where
  onRampBPS : ℤ := 0
  offRampBPS : ℤ := 0
  minFeeUSD : Decimal := 0
  maxFeeUSD : Decimal := 0
  cryptoCollectionBPS : ℤ := 0
  cryptoCollectionMaxFeeUSD : Decimal := 0
  bankCollectionBPS : ℤ := 0
  bankCollectionMinFeeUSD : Decimal := 0
  bankCollectionMaxFeeUSD : Decimal := 0

inductive FeeScheduleErr
  /-- "... must be between 0 and 10000, got ..." -/
  | bpsOutOfRange (field : String) (value : ℤ)
  /-- "... must not exceed ..." -/
  | minExceedsMax (minField : String) (min : Decimal) (maxField : String) (max : Decimal)
  deriving DecidableEq

def validateBPS (field : String) (value : ℤ) : Except FeeScheduleErr Unit :=
  if value < 0 ∨ 10000 < value then .error (.bpsOutOfRange field value) else .ok ()

/-- A minimum and a maximum that `Validate` compares, when both are set. -/
def validateMinMax (minField : String) (min : Decimal) (maxField : String) (max : Decimal) :
    Except FeeScheduleErr Unit :=
  if min ≠ 0 ∧ max ≠ 0 ∧ max < min then .error (.minExceedsMax minField min maxField max) else .ok ()

variable (f : FeeSchedule)

def FeeSchedule.validate : Except FeeScheduleErr Unit := do
  validateBPS "OnRampBPS" f.onRampBPS
  validateBPS "OffRampBPS" f.offRampBPS
  validateBPS "CryptoCollectionBPS" f.cryptoCollectionBPS
  validateBPS "BankCollectionBPS" f.bankCollectionBPS
  validateMinMax "MinFeeUSD" f.minFeeUSD "MaxFeeUSD" f.maxFeeUSD
  validateMinMax "BankCollectionMinFeeUSD" f.bankCollectionMinFeeUSD "BankCollectionMaxFeeUSD" f.bankCollectionMaxFeeUSD

inductive FeeType
  | onRamp | offRamp | cryptoCollection | bankCollection
  deriving DecidableEq

def FeeSchedule.bps : FeeType → ℤ
  | .onRamp => f.onRampBPS
  | .offRamp => f.offRampBPS
  | .cryptoCollection => f.cryptoCollectionBPS
  | .bankCollection => f.bankCollectionBPS

def FeeSchedule.maxFee : FeeType → Decimal
  | .onRamp => f.maxFeeUSD
  | .offRamp => f.maxFeeUSD
  | .cryptoCollection => f.cryptoCollectionMaxFeeUSD
  | .bankCollection => f.bankCollectionMaxFeeUSD

/-- The minimum of a fee type. Only bank collection can have its own. -/
def FeeSchedule.minFee (t : FeeType) : Decimal :=
  if t = .bankCollection ∧ f.bankCollectionMinFeeUSD ≠ 0 then f.bankCollectionMinFeeUSD else f.minFeeUSD

/-- `CalculateFee`. Negative basis points are an error. The division keeps sixteen places. -/
def FeeSchedule.calculateFee (amount : Decimal) (t : FeeType) : Option Decimal :=
  if f.bps t < 0 then none
  else
    let fee := roundPlaces 8 (roundPlaces 16 (amount * f.bps t / 10000))
    let fee := if f.minFee t ≠ 0 ∧ fee < f.minFee t then roundPlaces 8 (f.minFee t) else fee
    let fee := if f.maxFee t ≠ 0 ∧ f.maxFee t < fee then roundPlaces 8 (f.maxFee t) else fee
    some fee

end Settla
