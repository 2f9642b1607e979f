import ContractAbi.Settings.Setting
import ContractAbi.Text.Digits
import ContractAbi.Text.Escape
import ContractAbi.Text.Reader

/-!
# Settings in variables

The name of a variable tells its key, in any letter case, and its text tells its value: a truth
value, a number, a quoted text, a list or a mapping in brackets, and a plain text otherwise.
-/

namespace ContractAbi.Variable

open Text (Reader decimal? isWhitespace)

/-- What the names of all variables for settings start with. -/
def namePrologue : String := "ABI_RESOLVER_"

/-- The key path of a variable's name: the lowercase rest behind the common start, split at dots.
White space around the name and around the rest is no part of it, and a name with an empty part
tells no key. -/
def keyPath? (name : String) : Option (List String) :=
  let name := String.ofList (Text.trim name.toList)
  match namePrologue.toLower.toList.isPrefixOf? name.toLower.toList with
  | none => none
  | some rest =>
    let parts := (String.ofList (Text.trim rest)).splitOn "."
    if parts.any String.isEmpty then none else some parts

/-- The text behind its leading white space. -/
def skipBlanks (text : List Char) : List Char := text.dropWhile isWhitespace

/-- Whether a character may stand in a text without quotes. -/
def isUnquoted (char : Char) : Bool :=
  char ≠ ',' && char ≠ '[' && char ≠ ']' && char ≠ '\x7b' && char ≠ '\x7d'

/-- Whether a character may stand in a key without quotes. -/
def isKeyChar (char : Char) : Bool := char.isAlphanum || char = '_' || char = '-'

/-- The natural number below `2 ^ 64` that a text spells, perhaps behind a plus. -/
def unsigned? (text : List Char) : Option Nat := do
  let digits := match text with
    | '+' :: digits => digits
    | digits => digits
  let number ← decimal? digits
  if number < 1 <<< 64 then return number else none

/-- The negative number down to `-2 ^ 63` that a text spells. -/
def negative? : List Char → Option Int
  | '-' :: digits => do
    let number ← decimal? digits
    if number ≤ 1 <<< 63 then return -(number : Int) else none
  | _ => none

/-- The exponent that a text spells behind its `e`; no text spells none. -/
def exponent? : List Char → Option Int
  | [] => some 0
  | letter :: text => do
    if letter ≠ 'e' ∧ letter ≠ 'E' then none
    match text with
    | '-' :: digits => return -((← decimal? digits : Nat) : Int)
    | '+' :: digits => return ((← decimal? digits : Nat) : Int)
    | digits => return ((← decimal? digits : Nat) : Int)

/-- The fraction that a text with a point spells; digits may be missing on one side of it. -/
def float? (text : List Char) : Option Binary64 := do
  let (isNegative, text) := match text with
    | '-' :: rest => (true, rest)
    | '+' :: rest => (false, rest)
    | rest => (false, rest)
  match text.dropWhile Char.isDigit with
  | '.' :: rest =>
    let fraction := rest.takeWhile Char.isDigit
    let digits ← decimal? (text.takeWhile Char.isDigit ++ fraction)
    let exponent ← exponent? (rest.dropWhile Char.isDigit)
    return Binary64.ofDecimal ⟨isNegative, digits, exponent - fraction.length⟩
  | _ => none

/-- The setting that a text without quotes stands for. -/
def unquoted (text : List Char) : Setting :=
  if text = "true".toList then .bool true
  else if text = "false".toList then .bool false
  else
    match float? text, unsigned? text, negative? text with
    | some value, _, _ => .float value
    | none, some number, _ => .unsigned number
    | none, none, some number => .signed number
    | none, none, none => if text.isEmpty then .unit else .text (String.ofList text)

/-- The text that is written with escapes. Nothing else than a letter with a meaning or a code
point may follow a backslash. -/
def unescape? : List Char → Option (List Char)
  | [] => some []
  | ['\\'] => none
  | '\\' :: 'u' :: a :: b :: c :: d :: rest => do
    return (← Text.Escape.ofCodePoint? [a, b, c, d]) :: (← unescape? rest)
  | '\\' :: 'U' :: a :: b :: c :: d :: e :: f :: g :: h :: rest => do
    return (← Text.Escape.ofCodePoint? [a, b, c, d, e, f, g, h]) :: (← unescape? rest)
  | '\\' :: letter :: rest => do
    return (← Text.Escape.ofLetter? letter) :: (← unescape? rest)
  | char :: rest => do
    if Text.Escape.isPlain char then return char :: (← unescape? rest) else none

/-- The text that stands for what is written between quotes. When there is an escape, what precedes
the first one keeps only as many bytes as it has characters. -/
def contentOf? (written : List Char) : Option (List Char) := do
  let plain := written.takeWhile (· ≠ '\\')
  let escaped := written.dropWhile (· ≠ '\\')
  if !plain.all Text.Escape.isPlain then none
  if escaped.isEmpty then return plain
  else return Text.takeBytes plain.length plain ++ (← unescape? escaped)

example : contentOf? "a\\tb\\u0041".toList = some "a\tbA".toList ∧
    contentOf? "\\x41".toList = none ∧ contentOf? "éa\\n".toList = some "é\n".toList := by
  decide +kernel

/-- Reads what is written up to the closing quote. What follows a backslash closes nothing. -/
def readWritten : Reader (List Char)
  | '"' :: rest => some ([], rest)
  | '\\' :: char :: rest => (readWritten rest).map (Prod.map ('\\' :: char :: ·) id)
  | char :: rest => (readWritten rest).map (Prod.map (char :: ·) id)
  | [] => none

/-- Reads a text up to its closing quote. -/
def readQuoted : Reader (List Char) := fun text => do
  let (written, rest) ← readWritten text
  return (← contentOf? written, rest)

/-- The text behind a key of a mapping. A key without quotes may be empty. -/
def skipKey? : List Char → Option (List Char)
  | '"' :: rest => (readQuoted rest).map Prod.snd
  | text => some (text.dropWhile isKeyChar)

mutual
/-- Reads a value and the blanks around it. -/
def readValue : (fuel : Nat) → Reader Setting
  | 0, _ => none
  | fuel + 1, text => do
    let (setting, rest) ← match skipBlanks text with
      | '\x7b' :: rest => (skipPairs? fuel rest).map fun rest => (Setting.mapping, rest)
      | '[' :: rest => (skipItems? fuel rest).map fun rest => (Setting.sequence, rest)
      | '"' :: rest =>
        (readQuoted rest).map fun (content, rest) => (Setting.text (String.ofList content), rest)
      | '\'' :: char :: '\'' :: rest => some (Setting.text (String.singleton char), rest)
      | '\'' :: _ => none
      | text =>
        let content := Text.trim (text.takeWhile isUnquoted)
        some (unquoted content, text.dropWhile isUnquoted)
    return (setting, skipBlanks rest)

/-- The text behind the items of a list, of which any may be empty, and its closing bracket. -/
def skipItems? : (fuel : Nat) → List Char → Option (List Char)
  | 0, _ => none
  | fuel + 1, text => do
    let (_, rest) ← readValue fuel text
    match rest with
    | ',' :: rest => skipItems? fuel rest
    | ']' :: rest => some rest
    | _ => none

/-- The text behind the pairs of a mapping and its closing brace. -/
def skipPairs? : (fuel : Nat) → List Char → Option (List Char)
  | 0, _ => none
  | fuel + 1, text =>
    match skipBlanks text with
    | '\x7d' :: rest => some rest
    | text => do
      match skipBlanks (← skipKey? text) with
      | '=' :: rest => do
        let (_, rest) ← readValue fuel rest
        match rest with
        | ',' :: rest => skipPairs? fuel rest
        | '\x7d' :: rest => some rest
        | _ => none
      | _ => none
end

/-- The setting that the text of a variable stands for. A text that is no value as a whole stands
for itself. -/
def setting (text : String) : Setting :=
  let trimmed := Text.trim text.toList
  match readValue (2 * trimmed.length + 2) trimmed with
  | some (setting, []) => setting
  | _ => .text (String.ofList trimmed)

/-- The key and the setting of a variable. A key with several parts leads into a mapping. -/
def entry? (name text : String) : Option (String × Setting) :=
  match keyPath? name with
  | some [key] => some (key, setting text)
  | some (key :: _) => some (key, .mapping)
  | _ => none

end ContractAbi.Variable
