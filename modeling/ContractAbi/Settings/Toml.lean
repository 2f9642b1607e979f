import ContractAbi.Settings.Document
import ContractAbi.Text.Escape
import ContractAbi.Text.Reader

/-!
# Settings files

Settings files are written in TOML. Reading gives the settings under the keys of the outermost
table, or nothing when the text breaks a rule of the format.
-/

namespace ContractAbi.Toml

open Text (Reader consChar isBlank skipBlanks)
open Text.Escape (isPlain ofCodePoint?)

/-- How many arrays and inline tables may stand within one another, and of how many parts a key may
consist. -/
def nestingLimit : Nat := 80

/-! ## Quoted texts -/

/-- The character that a letter behind a backslash stands for. -/
def escape? (letter : Char) : Option Char :=
  if letter = 'e' then some '\x1b' else Text.Escape.ofLetter? letter

/-- Reads a text of one line up to its closing quote. -/
def readBasic : Reader (List Char)
  | '"' :: rest => some ([], rest)
  | '\\' :: 'x' :: a :: b :: rest => consChar (ofCodePoint? [a, b]) (readBasic rest)
  | '\\' :: 'u' :: a :: b :: c :: d :: rest => consChar (ofCodePoint? [a, b, c, d]) (readBasic rest)
  | '\\' :: 'U' :: a :: b :: c :: d :: e :: f :: g :: h :: rest =>
    consChar (ofCodePoint? [a, b, c, d, e, f, g, h]) (readBasic rest)
  | '\\' :: letter :: rest => consChar (escape? letter) (readBasic rest)
  | char :: rest => if isPlain char then consChar (some char) (readBasic rest) else none
  | [] => none

/-- Whether nothing but blanks is left of the line. -/
def endsLine (text : List Char) : Bool :=
  match skipBlanks text with
  | '\n' :: _ | '\r' :: '\n' :: _ => true
  | _ => false

/-- Reads a text of several lines up to its closing quotes. After a backslash at the end of a line
everything blank is dropped; `dropping` tells that this is going on. -/
def readBasicLines (dropping : Bool) : Reader (List Char)
  | '"' :: '"' :: '"' :: '"' :: '"' :: rest => some (['"', '"'], rest)
  | '"' :: '"' :: '"' :: '"' :: rest => some (['"'], rest)
  | '"' :: '"' :: '"' :: rest => some ([], rest)
  | '\\' :: 'x' :: a :: b :: rest => consChar (ofCodePoint? [a, b]) (readBasicLines false rest)
  | '\\' :: 'u' :: a :: b :: c :: d :: rest =>
    consChar (ofCodePoint? [a, b, c, d]) (readBasicLines false rest)
  | '\\' :: 'U' :: a :: b :: c :: d :: e :: f :: g :: h :: rest =>
    consChar (ofCodePoint? [a, b, c, d, e, f, g, h]) (readBasicLines false rest)
  | '\\' :: char :: rest =>
    if endsLine (char :: rest) then readBasicLines true (char :: rest)
    else consChar (escape? char) (readBasicLines false rest)
  | '\r' :: '\n' :: rest =>
    if dropping then readBasicLines true rest
    else consChar (some '\r') (consChar (some '\n') (readBasicLines false rest))
  | char :: rest =>
    if dropping && (isBlank char || char = '\n') then readBasicLines true rest
    else if isPlain char || char = '\n' then consChar (some char) (readBasicLines false rest)
    else none
  | [] => none

/-- Reads a text of one line without escapes up to its closing quote. -/
def readLiteral : Reader (List Char)
  | '\'' :: rest => some ([], rest)
  | char :: rest => if isPlain char then consChar (some char) (readLiteral rest) else none
  | [] => none

/-- Reads a text of several lines without escapes up to its closing quotes. -/
def readLiteralLines : Reader (List Char)
  | '\'' :: '\'' :: '\'' :: '\'' :: '\'' :: rest => some (['\'', '\''], rest)
  | '\'' :: '\'' :: '\'' :: '\'' :: rest => some (['\''], rest)
  | '\'' :: '\'' :: '\'' :: rest => some ([], rest)
  | '\r' :: '\n' :: rest =>
    consChar (some '\r') (consChar (some '\n') (readLiteralLines rest))
  | char :: rest =>
    if isPlain char || char = '\n' then consChar (some char) (readLiteralLines rest) else none
  | [] => none

/-- The text behind a line end that directly follows opening quotes. -/
def skipFirstLineEnd : List Char → List Char
  | '\n' :: rest => rest
  | '\r' :: '\n' :: rest => rest
  | text => text

/-! ## Numbers -/

/-- The digits without the underscores between them. -/
def plainDigits? (isDigit : Char → Bool) : List Char → Option (List Char)
  | [] => none
  | [digit] => if isDigit digit then some [digit] else none
  | digit :: '_' :: rest =>
    if isDigit digit then (digit :: ·) <$> plainDigits? isDigit rest else none
  | digit :: rest =>
    if isDigit digit then (digit :: ·) <$> plainDigits? isDigit rest else none

/-- The number that digits spell in a base. -/
def numberOf (base : Nat) (digits : List Char) : Nat :=
  digits.foldl (fun number digit => base * number + (Hex.digitValue? digit).getD 0) 0

/-- Decimal digits without a superfluous zero in front. -/
def wholeDigits? (text : List Char) : Option (List Char) := do
  match ← plainDigits? Char.isDigit text with
  | '0' :: _ :: _ => none
  | digits => some digits

/-- The sign in front of a text, and the rest. -/
def splitSign : List Char → Bool × List Char
  | '-' :: rest => (true, rest)
  | '+' :: rest => (false, rest)
  | text => (false, text)

/-- The integer that a token spells. -/
def integer? (token : List Char) : Option Int :=
  match token with
  | '0' :: 'x' :: digits => do
    let isDigit (char : Char) := (Hex.digitValue? char).isSome
    return Int.ofNat (numberOf 16 (← plainDigits? isDigit digits))
  | '0' :: 'o' :: digits => do
    let isDigit (char : Char) := '0' ≤ char && char ≤ '7'
    return Int.ofNat (numberOf 8 (← plainDigits? isDigit digits))
  | '0' :: 'b' :: digits => do
    let isDigit (char : Char) := char = '0' || char = '1'
    return Int.ofNat (numberOf 2 (← plainDigits? isDigit digits))
  | token => do
    let (isNegative, digits) := splitSign token
    let number := Int.ofNat (numberOf 10 (← wholeDigits? digits))
    return if isNegative then -number else number

/-- The exponent that a text spells behind its `e`; no text spells none. -/
def exponent? : List Char → Option Int
  | [] => some 0
  | letter :: text => do
    if letter ≠ 'e' ∧ letter ≠ 'E' then none
    let (isNegative, digits) := splitSign text
    let number := Int.ofNat (numberOf 10 (← plainDigits? Char.isDigit digits))
    return if isNegative then -number else number

/-- The fraction that a token spells. -/
def float? (token : List Char) : Option Binary64 := do
  let (isNegative, text) := splitSign token
  match text with
  | ['i', 'n', 'f'] => return .infinite isNegative
  | ['n', 'a', 'n'] => return .nan
  | text =>
    let isNumeral (char : Char) := char.isDigit || char = '_'
    let whole ← wholeDigits? (text.takeWhile isNumeral)
    let (fraction, rest) ← match text.dropWhile isNumeral with
      | '.' :: rest => do
        pure (← plainDigits? Char.isDigit (rest.takeWhile isNumeral), rest.dropWhile isNumeral)
      | [] => none
      | rest => pure ([], rest)
    let digits := numberOf 10 (whole ++ fraction)
    match Binary64.ofDecimal ⟨isNegative, digits, (← exponent? rest) - fraction.length⟩ with
    | .infinite _ => none
    | value => some value

/-! ## Dates and times -/

/-- The number of days of a month. -/
def daysOf (year month : Nat) : Nat :=
  if month = 2 then
    if year % 4 = 0 ∧ (year % 100 ≠ 0 ∨ year % 400 = 0) then 29 else 28
  else if month = 4 ∨ month = 6 ∨ month = 9 ∨ month = 11 then 30
  else 31

/-- The text behind a date. -/
def skipDate? : List Char → Option (List Char)
  | a :: b :: c :: d :: '-' :: e :: f :: '-' :: g :: h :: rest =>
    let year := numberOf 10 [a, b, c, d]
    let month := numberOf 10 [e, f]
    let day := numberOf 10 [g, h]
    if [a, b, c, d, e, f, g, h].all Char.isDigit ∧ 1 ≤ month ∧ month ≤ 12 ∧ 1 ≤ day ∧
        day ≤ daysOf year month then some rest
    else none
  | _ => none

/-- The text behind two digits that spell at most `limit`. -/
def skipTwoDigits? (limit : Nat) : List Char → Option (List Char)
  | a :: b :: rest =>
    if a.isDigit ∧ b.isDigit ∧ numberOf 10 [a, b] ≤ limit then some rest else none
  | _ => none

/-- The text behind hours and minutes. -/
def skipMinutes? (text : List Char) : Option (List Char) := do
  match ← skipTwoDigits? 23 text with
  | ':' :: rest => skipTwoDigits? 59 rest
  | _ => none

/-- The text behind a time. -/
def skipTime? (text : List Char) : Option (List Char) := do
  match ← skipMinutes? text with
  | ':' :: rest =>
    match ← skipTwoDigits? 60 rest with
    | '.' :: digit :: rest => if digit.isDigit then some (rest.dropWhile Char.isDigit) else none
    | rest => some rest
  | rest => some rest

/-- Whether the text is an offset from universal time, or empty. -/
def isOffset : List Char → Bool
  | [] | ['Z'] | ['z'] => true
  | '+' :: text | '-' :: text => skipMinutes? text = some []
  | _ => false

/-- Whether a token is a date, a time or both. -/
def isDateTime (token : List Char) : Bool :=
  match skipDate? token with
  | none => skipTime? token = some []
  | some [] => true
  | some (separator :: time) =>
    (separator = 'T' || separator = 't' || separator = ' ') && (skipTime? time).any isOffset

/-! ## Values -/

/-- Whether a character may stand in a number, a date or a word. -/
def isTokenChar (char : Char) : Bool :=
  char.isAlphanum || char = '+' || char = '-' || char = '_' || char = '.' || char = ':'

/-- Takes a token off the text. A blank between a date and a time belongs to it. -/
def splitToken (text : List Char) : List Char × List Char :=
  let token := text.takeWhile isTokenChar
  match skipDate? token, text.dropWhile isTokenChar with
  | some [], ' ' :: digit :: rest =>
    if digit.isDigit then
      (token ++ ' ' :: (digit :: rest).takeWhile isTokenChar, (digit :: rest).dropWhile isTokenChar)
    else (token, ' ' :: digit :: rest)
  | _, rest => (token, rest)

/-- The setting that a token spells. -/
def settingOf? (token : List Char) : Option Setting :=
  if token = "true".toList then some (.bool true)
  else if token = "false".toList then some (.bool false)
  else if isDateTime token then some .mapping
  else (integer? token).bind Setting.ofInt? <|> (float? token).map .float

/-- The text behind blanks, line ends and comments; `commented` tells that a comment goes on. -/
def skipGaps (commented : Bool) : List Char → List Char
  | '\r' :: '\n' :: rest => skipGaps false rest
  | '\n' :: rest => skipGaps false rest
  | char :: rest =>
    if commented then if isPlain char then skipGaps true rest else char :: rest
    else if isBlank char then skipGaps false rest
    else if char = '#' then skipGaps true rest
    else char :: rest
  | [] => []

/-- Whether a character may stand in a bare key. -/
def isBareKeyChar (char : Char) : Bool := char.isAlphanum || char = '_' || char = '-'

/-- Reads one part of a key. -/
def readKeyPart : Reader String
  | '"' :: rest => (readBasic rest).map (Prod.map String.ofList id)
  | '\'' :: rest => (readLiteral rest).map (Prod.map String.ofList id)
  | text =>
    match text.takeWhile isBareKeyChar with
    | [] => none
    | part => some (String.ofList part, text.dropWhile isBareKeyChar)

/-- Reads up to `limit` parts of a dotted key, with blanks around each. -/
def readParts : (limit : Nat) → Reader (List String)
  | 0, _ => none
  | limit + 1, text => do
    let (part, rest) ← readKeyPart (skipBlanks text)
    match skipBlanks rest with
    | '.' :: rest => do
      let (parts, rest) ← readParts limit rest
      return (part :: parts, rest)
    | rest => return ([part], rest)

/-- Reads a key. -/
def readKey : Reader (List String) := readParts nestingLimit

/-- Reads a text in quotes as a setting. -/
def readQuoted (content : Reader (List Char)) : Reader Setting := fun text => do
  let (content, rest) ← content text
  return (.text (String.ofList content), rest)

mutual
/-- Reads a value in which up to `depth` arrays and inline tables stand within one another. -/
def readValue : (fuel depth : Nat) → Reader Setting
  | 0, _, _ => none
  | fuel + 1, depth, text =>
    match depth, text with
    | _, '"' :: '"' :: '"' :: rest => readQuoted (readBasicLines false) (skipFirstLineEnd rest)
    | _, '"' :: rest => readQuoted readBasic rest
    | _, '\'' :: '\'' :: '\'' :: rest => readQuoted readLiteralLines (skipFirstLineEnd rest)
    | _, '\'' :: rest => readQuoted readLiteral rest
    | 0, '[' :: _ | 0, '\x7b' :: _ => none
    | depth + 1, '[' :: rest => (skipItems? fuel depth rest).map fun rest => (.sequence, rest)
    | depth + 1, '\x7b' :: rest => do
      let (document, rest) ← readPairs fuel depth [] rest
      return (← Setting.ofTable? (← document.settings?), rest)
    | _, text =>
      let (token, rest) := splitToken text
      (settingOf? token).map fun setting => (setting, rest)

/-- The text behind the items of an array and its closing bracket. -/
def skipItems? : (fuel depth : Nat) → List Char → Option (List Char)
  | 0, _, _ => none
  | fuel + 1, depth, text =>
    match skipGaps false text with
    | ']' :: rest => some rest
    | text => do
      let (_, rest) ← readValue fuel depth text
      match skipGaps false rest with
      | ',' :: rest => skipItems? fuel depth rest
      | ']' :: rest => some rest
      | _ => none

/-- Reads the pairs of an inline table, up to its closing brace, into a document. -/
def readPairs : (fuel depth : Nat) → Document → Reader Document
  | 0, _, _, _ => none
  | fuel + 1, depth, document, text =>
    match skipGaps false text with
    | '\x7d' :: rest => some (document, rest)
    | text => do
      let (key, rest) ← readKey text
      match skipGaps false rest with
      | '=' :: rest => do
        let (setting, rest) ← readValue fuel depth (skipGaps false rest)
        let document ← document.define setting key
        match skipGaps false rest with
        | ',' :: rest => readPairs fuel depth document rest
        | '\x7d' :: rest => some (document, rest)
        | _ => none
      | _ => none
end

/-! ## Documents -/

/-- The text of the next line, when blanks and a comment are all that is left of this one. -/
def nextLine? (text : List Char) : Option (List Char) :=
  let afterComment := match skipBlanks text with
    | '#' :: rest => rest.dropWhile isPlain
    | rest => rest
  match afterComment with
  | [] => some []
  | '\n' :: rest | '\r' :: '\n' :: rest => some rest
  | _ => none

/-- A document that is being read, and the path of the header that is in force. -/
structure Progress where
  document : Document
  header : List String

/-- Reads a header behind its opening brackets. -/
def readHeader (isList : Bool) (progress : Progress) : Reader Progress := fun text => do
  let (key, rest) ← readKey text
  let path := key.dropLast
  let last ← key.getLast?
  if isList then
    match rest with
    | ']' :: ']' :: rest => return (⟨← progress.document.appendTable path last, key⟩, rest)
    | _ => none
  else
    match rest with
    | ']' :: rest => return (⟨← progress.document.openTable path last, key⟩, rest)
    | _ => none

/-- Reads a key with its value. -/
def readPair (progress : Progress) : Reader Progress := fun text => do
  let (key, rest) ← readKey text
  match rest with
  | '=' :: rest => do
    let (setting, rest) ← readValue (2 * rest.length + 2) nestingLimit (skipBlanks rest)
    let document ← progress.document.descend (Document.define setting key) progress.header
    return (⟨document, progress.header⟩, rest)
  | _ => none

/-- Reads what stands on one line. -/
def readLine (progress : Progress) : Reader Progress := fun text =>
  match skipBlanks text with
  | [] => some (progress, [])
  | '\n' :: rest => some (progress, '\n' :: rest)
  | '\r' :: rest => some (progress, '\r' :: rest)
  | '#' :: rest => some (progress, '#' :: rest)
  | '[' :: '[' :: rest => readHeader true progress rest
  | '[' :: rest => readHeader false progress rest
  | text => readPair progress text

/-- Reads up to `fuel` lines. -/
def readLines : (fuel : Nat) → Progress → List Char → Option Document
  | _, progress, [] => some progress.document
  | 0, _, _ => none
  | fuel + 1, progress, text => do
    let (progress, rest) ← readLine progress text
    readLines fuel progress (← nextLine? rest)

/-- The settings in a text, which may begin with a byte order mark. -/
def parse? (text : String) : Option (Keyed Setting) := do
  let chars := match text.toList with
    | '\uFEFF' :: rest => rest
    | chars => chars
  (← readLines chars.length ⟨[], []⟩ chars).settings?

end ContractAbi.Toml
