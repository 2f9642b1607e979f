import ContractAbi.Bytes.Hex

/-!
# Escapes

What a backslash in a quoted text introduces: a letter that stands for one character, or the
hexadecimal digits of a code point.
-/

namespace ContractAbi.Text.Escape

/-- Whether a character may stand in a quoted text as it is. -/
def isPlain (char : Char) : Bool := char = '\t' || (0x20 ≤ char.toNat && char.toNat ≠ 0x7f)

/-- The character that a letter stands for. -/
def ofLetter? : Char → Option Char
  | 'b' => some '\x08'
  | 't' => some '\t'
  | 'n' => some '\n'
  | 'f' => some '\x0c'
  | 'r' => some '\r'
  | '"' => some '"'
  | '\\' => some '\\'
  | _ => none

/-- The character whose code point the hexadecimal digits spell. -/
def ofCodePoint? (digits : List Char) : Option Char := do
  let values ← digits.mapM Hex.digitValue?
  let number := values.foldl (fun number value => 16 * number + value) 0
  if number.isValidChar then return Char.ofNat number else none

example : ofCodePoint? "00e9".toList = some 'é' ∧ ofCodePoint? "D800".toList = none := by
  decide +kernel

end ContractAbi.Text.Escape
