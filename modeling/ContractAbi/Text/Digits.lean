/-!
# Decimal digits

The number that decimal digits spell, whatever zeros stand in front.
-/

namespace ContractAbi.Text

/-- The number that a nonempty run of decimal digits spells. -/
def decimal? (digits : List Char) : Option Nat :=
  if digits ≠ [] ∧ digits.all Char.isDigit then
    some (digits.foldl (fun number digit => 10 * number + (digit.toNat - 48)) 0)
  else none

example : decimal? "007".toList = some 7 ∧ decimal? [] = none ∧ decimal? ['a'] = none := by decide

end ContractAbi.Text
