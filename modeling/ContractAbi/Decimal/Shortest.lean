import ContractAbi.Decimal.Binary64

/-!
# Shortest decimals

The text of a binary fraction has the fewest digits that still stand for it. Decimal grids are tried
from the coarsest to the finest; the first one with a point that rounds to the fraction gives the
digits. Places are written out in full, without an exponent.
-/

namespace ContractAbi.Binary64

/-- The rationals that round to a positive fraction lie between these ends, which belong to them
when the significand is even. -/
def roundingInterval (significand : Nat) (exponent : Int) : Rat × Rat :=
  let unit := (2 : Rat) ^ exponent
  let below := if significand = 1 <<< 52 ∧ exponent > minimumExponent then unit / 4 else unit / 2
  (significand * unit - below, significand * unit + unit / 2)

/-- Whether a rational rounds to the fraction. -/
def roundsTo (significand : Nat) (exponent : Int) (value : Rat) : Bool :=
  let (low, high) := roundingInterval significand exponent
  if significand % 2 = 0 then low ≤ value ∧ value ≤ high else low < value ∧ value < high

/-- The multiple of `10 ^ place` that rounds to the fraction: of the two neighbours of the fraction
the nearer one, and the upper one when both are equally near. -/
def onGrid? (significand : Nat) (exponent place : Int) : Option Nat :=
  let unit := (10 : Rat) ^ place
  let value := significand * (2 : Rat) ^ exponent
  let below := (value / unit).floor.toNat
  let above := below + 1
  let hitsBelow := roundsTo significand exponent (below * unit)
  let hitsAbove := roundsTo significand exponent (above * unit)
  if hitsBelow ∧ (¬hitsAbove ∨ value - below * unit < above * unit - value) then some below
  else if hitsAbove then some above
  else none

/-- The first grid with a hit, from `10 ^ place` on towards finer ones. -/
def firstGrid (significand : Nat) (exponent : Int) : (count : Nat) → (place : Int) → Nat × Int
  | 0, place => (0, place)
  | count + 1, place =>
    match onGrid? significand exponent place with
    | some digits => (digits, place)
    | none => firstGrid significand exponent count (place - 1)

/-- The digits and the decimal exponent of the shortest decimal of a positive fraction. -/
def shortest (significand : Nat) (exponent : Int) : Nat × Int :=
  firstGrid significand exponent 650 310

/-- The text of `digits * 10 ^ place` with all places written out. -/
def positional (digits : Nat) (place : Int) : String :=
  let written := Nat.toDigits 10 digits
  let zeros (count : Nat) := List.replicate count '0'
  let fraction := (-place).toNat
  if fraction = 0 then String.ofList (written ++ zeros place.toNat)
  else
    let filled := zeros (fraction + 1 - written.length) ++ written
    let whole := filled.length - fraction
    String.ofList (filled.take whole ++ '.' :: filled.drop whole)

/-- The text of a binary fraction. -/
def toText : Binary64 → String
  | .nan => "NaN"
  | .infinite isNegative => if isNegative then "-inf" else "inf"
  | .finite isNegative significand exponent =>
    (if isNegative then "-" else "") ++
      if significand = 0 then "0"
      else
        let (digits, place) := shortest significand exponent
        positional digits place

end ContractAbi.Binary64
