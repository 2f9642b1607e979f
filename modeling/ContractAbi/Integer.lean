import ContractAbi.Bytes

/-!
# Integers of one word

Integers of 256 bits, unsigned and signed, carry the proof of their range. As a word a signed
integer stands in two's complement. Bounds are written as shifts: `1 <<< 256` is `2 ^ 256`.
-/

namespace ContractAbi

/-- An unsigned integer of 256 bits. -/
structure Uint256 where
  toNat : Nat
  isLt : toNat < 1 <<< 256
  deriving DecidableEq

/-- A signed integer of 256 bits. -/
structure Int256 where
  toInt : Int
  lowerBound : -(1 <<< 255) ≤ toInt
  upperBound : toInt < 1 <<< 255
  deriving DecidableEq

namespace Uint256

/-- The number, when it is in range. -/
def ofNat? (number : Nat) : Option Uint256 :=
  if inRange : number < 1 <<< 256 then some ⟨number, inRange⟩ else none

/-- The number in a word. -/
def ofWord (word : Word) : Uint256 :=
  ⟨word.toNat, by simpa using word.toNat_lt⟩

/-- The word that holds the number. -/
def toWord (number : Uint256) : Word := SizedBytes.ofNat 32 number.toNat

/-- Whether the number is below `2 ^ bits`. -/
def Fits (number : Uint256) (bits : Nat) : Prop := number.toNat < 1 <<< bits

instance (number : Uint256) (bits : Nat) : Decidable (number.Fits bits) :=
  inferInstanceAs (Decidable (number.toNat < 1 <<< bits))

theorem ofWord_toWord (number : Uint256) : ofWord number.toWord = number := by
  cases number with
  | mk number inRange =>
    simp only [ofWord, toWord, SizedBytes.toNat_ofNat, mk.injEq]
    exact Nat.mod_eq_of_lt (by simpa using inRange)

end Uint256

namespace Int256

/-- The number, when it is in range. -/
def ofInt? (number : Int) : Option Int256 :=
  if inRange : -(1 <<< 255) ≤ number ∧ number < 1 <<< 255 then some ⟨number, inRange.1, inRange.2⟩
  else none

/-- The number that stands in a word in two's complement. -/
def ofWord (word : Word) : Int256 :=
  have bound : word.toNat < 1 <<< 256 := by simpa using word.toNat_lt
  if high : 1 <<< 255 ≤ word.toNat then ⟨word.toNat - (1 <<< 256), by omega, by omega⟩
  else ⟨word.toNat, by omega, by omega⟩

/-- The word that holds the number in two's complement. -/
def toWord (number : Int256) : Word :=
  let place := if number.toInt < 0 then number.toInt + (1 <<< 256) else number.toInt
  SizedBytes.ofNat 32 place.toNat

/-- Whether the number has a two's complement form of `bits` bits. -/
def Fits (number : Int256) (bits : Nat) : Prop :=
  -(1 <<< (bits - 1)) ≤ number.toInt ∧ number.toInt < 1 <<< (bits - 1)

instance (number : Int256) (bits : Nat) : Decidable (number.Fits bits) :=
  inferInstanceAs (Decidable (_ ∧ _))

theorem ofWord_toWord (number : Int256) : ofWord number.toWord = number := by
  cases number with
  | mk number lowerBound upperBound =>
    have value : (toWord ⟨number, lowerBound, upperBound⟩).toNat =
        (if number < 0 then number + (1 <<< 256) else number).toNat := by
      simp only [toWord, SizedBytes.toNat_ofNat]
      exact Nat.mod_eq_of_lt (by split <;> omega)
    unfold ofWord
    simp only [value]
    by_cases negative : number < 0
    · simp only [negative, ↓reduceIte]
      split <;> simp only [mk.injEq] <;> omega
    · simp only [negative, ↓reduceIte]
      split <;> simp only [mk.injEq] <;> omega

end Int256

end ContractAbi
