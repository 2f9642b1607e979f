/-!
# Readers

A reader takes a value off the front of a text and leaves the rest, or refuses the text.
-/

namespace ContractAbi.Text

/-- Takes a value off the front of a text and leaves the rest. -/
abbrev Reader (α : Type) := List Char → Option (α × List Char)

/-- Puts a character in front of what is read next. -/
def consChar (char? : Option Char) (next : Option (List Char × List Char)) :
    Option (List Char × List Char) := do
  let char ← char?
  let (content, rest) ← next
  return (char :: content, rest)

/-- The longest start of a text that takes at most `limit` bytes in UTF-8. -/
def takeBytes : (limit : Nat) → List Char → List Char
  | _, [] => []
  | limit, char :: rest =>
    if char.utf8Size ≤ limit then char :: takeBytes (limit - char.utf8Size) rest else []

/-- Whether a character is a space or a tab. -/
def isBlank (char : Char) : Bool := char = ' ' || char = '\t'

/-- The text behind its leading spaces and tabs. -/
def skipBlanks (text : List Char) : List Char := text.dropWhile isBlank

/-- The code points of white space in any script. -/
def whitespaceRanges : List (Nat × Nat) := [
  (0x09, 0x0d), (0x20, 0x20), (0x85, 0x85), (0xa0, 0xa0), (0x1680, 0x1680), (0x2000, 0x200a),
  (0x2028, 0x2029), (0x202f, 0x202f), (0x205f, 0x205f), (0x3000, 0x3000)]

/-- Whether a character is white space in any script. -/
def isWhitespace (char : Char) : Bool :=
  whitespaceRanges.any fun (first, last) => first ≤ char.toNat && char.toNat ≤ last

/-- The text without white space at its ends. -/
def trim (text : List Char) : List Char :=
  ((text.dropWhile isWhitespace).reverse.dropWhile isWhitespace).reverse

end ContractAbi.Text
