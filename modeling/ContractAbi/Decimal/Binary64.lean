/-!
# Decimals and binary fractions

A decimal literal stands for the binary fraction of 53 bits next to it; of two equally near ones it
is the even one. Values are exact rationals throughout.
-/

namespace ContractAbi

/-- A decimal literal: `digits * 10 ^ exponent`, with a sign. -/
structure Decimal where
  isNegative : Bool
  digits : Nat
  exponent : Int
  deriving DecidableEq, Repr

/-- A binary fraction: `significand * 2 ^ exponent`, with a sign. -/
inductive Binary64 where
  | finite (isNegative : Bool) (significand : Nat) (exponent : Int)
  | infinite (isNegative : Bool)
  | nan
  deriving DecidableEq, Repr

namespace Binary64

/-- The least exponent of a binary fraction. -/
def minimumExponent : Int := -1074

/-- The greatest exponent of a finite binary fraction. -/
def maximumExponent : Int := 971

/-- The natural number next to a nonnegative rational; of two equally near ones the even one. -/
def roundToEven (value : Rat) : Nat :=
  let below := value.floor.toNat
  let rest := value - below
  if rest < 1 / 2 ∨ (rest = 1 / 2 ∧ below % 2 = 0) then below else below + 1

/-- The exponent of the greatest power of two that is not above a positive rational. -/
def binaryExponent (value : Rat) : Int :=
  let estimate : Int := (value.num.toNat.log2 : Int) - (value.den.log2 : Int)
  if (2 : Rat) ^ estimate ≤ value then estimate else estimate - 1

/-- The binary fraction next to a positive rational. -/
def ofPositive (isNegative : Bool) (value : Rat) : Binary64 :=
  let exponent := max minimumExponent (binaryExponent value - 52)
  let significand := roundToEven (value / (2 : Rat) ^ exponent)
  -- Rounding up may reach the next power of two.
  let (significand, exponent) :=
    if significand = 1 <<< 53 then (1 <<< 52, exponent + 1) else (significand, exponent)
  if exponent > maximumExponent then .infinite isNegative
  else .finite isNegative significand exponent

/-- The number of decimal digits of a number. -/
def digitCount (number : Nat) : Nat := (Nat.toDigits 10 number).length

/-- The binary fraction next to a decimal literal. -/
def ofDecimal (decimal : Decimal) : Binary64 :=
  let magnitude := decimal.exponent + digitCount decimal.digits
  -- Far outside the range the answer is known without a power of ten.
  if decimal.digits = 0 ∨ magnitude < -400 then .finite decimal.isNegative 0 minimumExponent
  else if magnitude > 400 then .infinite decimal.isNegative
  else ofPositive decimal.isNegative ((decimal.digits : Rat) * (10 : Rat) ^ decimal.exponent)

end Binary64

end ContractAbi
