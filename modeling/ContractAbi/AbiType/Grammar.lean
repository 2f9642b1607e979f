import ContractAbi.AbiType.Name
import ContractAbi.Text.Reader

/-!
# The grammar of type texts

A type text is a name or a parenthesised tuple, followed by any number of array sizes. Reading has
two steps: the whole text is checked against the grammar first, and only then are its names given
their types, from left to right.
-/

namespace ContractAbi

/-- The shape of a type text, with its names as they were written. -/
inductive TypeSyntax where
  | name (text : String)
  /-- A name behind another one, which always stands for one byte. -/
  | qualified
  | tuple (members : List TypeSyntax)
  | array (element : TypeSyntax)
  | fixedArray (element : TypeSyntax) (length : ArrayLength)
  deriving Inhabited

namespace TypeSyntax

open Text (Reader skipBlanks)

/-- Whether a character can open a name. -/
def isNameStart (char : Char) : Bool := char.isAlpha || char = '_' || char = '$'

/-- Whether a character can go on with a name. -/
def isNameRest (char : Char) : Bool := isNameStart char || char.isDigit

/-- Reads a name. -/
def readName : Reader (List Char)
  | [] => none
  | start :: rest =>
    if isNameStart start then some (start :: rest.takeWhile isNameRest, rest.dropWhile isNameRest)
    else none

/-- Reads a name, or one that is qualified by a dot with or without a second name. -/
def readRoot : Reader TypeSyntax := fun text =>
  match readName text with
  | none => none
  | some (_, '.' :: rest) =>
    match readName rest with
    | some (_, rest) => some (.qualified, rest)
    | none => some (.qualified, rest)
  | some (text, rest) => some (.name (String.ofList text), rest)

/-- Reads one array size in brackets: nothing, or a number from 1 to `2 ^ 64 - 1`. -/
def readSize : Reader (Option ArrayLength)
  | '[' :: text =>
    match text.takeWhile Char.isDigit, text.dropWhile Char.isDigit with
    | [], ']' :: rest => some (none, rest)
    | digits, ']' :: rest =>
      match (Text.decimal? digits).bind ArrayLength.ofNat? with
      | some length => some (some length, rest)
      | none => none
    | _, _ => none
  | _ => none

/-- The array of an element with the given size. -/
def sized (element : TypeSyntax) : Option ArrayLength → TypeSyntax
  | none => .array element
  | some length => .fixedArray element length

/-- Takes up to `fuel` array sizes off the text and applies them from left to right. -/
def readSizes : (fuel : Nat) → TypeSyntax → List Char → TypeSyntax × List Char
  | 0, element, text => (element, text)
  | fuel + 1, element, text =>
    match readSize text with
    | none => (element, text)
    | some (size, rest) => readSizes fuel (element.sized size) rest

/-- Reads up to `fuel` more members of a tuple, each behind a comma and blanks. -/
def readMoreMembers (member : Reader TypeSyntax) : (fuel : Nat) → List Char →
    List TypeSyntax × List Char
  | fuel + 1, ',' :: text =>
    match member (skipBlanks text) with
    | none => ([], ',' :: text)
    | some (first, rest) =>
      let (others, rest) := readMoreMembers member fuel rest
      (first :: others, rest)
  | _, text => ([], text)

/-- Reads the members of a tuple up to its closing parenthesis, with a comma after the last one or
without. -/
def readMembers (member : Reader TypeSyntax) : Reader (List TypeSyntax) := fun text =>
  match skipBlanks text with
  | ')' :: rest => some ([], rest)
  | text =>
    match member text with
    | none => none
    | some (first, rest) =>
      let (others, rest) := readMoreMembers member rest.length rest
      let afterComma := match rest with
        | ',' :: rest => rest
        | rest => rest
      match skipBlanks afterComma with
      | ')' :: rest => some (first :: others, rest)
      | _ => none

/-- The text inside a tuple, when the text opens one. -/
def openTuple? : List Char → Option (List Char)
  | '(' :: rest => some rest
  | 't' :: 'u' :: 'p' :: 'l' :: 'e' :: '(' :: rest => some rest
  | _ => none

/-- Reads a tuple, whose members are read by `member`, or a name. -/
def readStem (member : Reader TypeSyntax) : Reader TypeSyntax := fun text =>
  match openTuple? text with
  | none => readRoot text
  | some inside =>
    match readMembers member inside with
    | none => none
    | some (members, rest) => some (.tuple members, rest)

/-- Reads a type whose tuple members are read by `member`. -/
def readTypeWith (member : Reader TypeSyntax) : Reader TypeSyntax := fun text =>
  match readStem member text with
  | none => none
  | some (stem, rest) => some (readSizes rest.length stem rest)

/-- Reads a type in which at most `depth` tuples stand around any name. -/
def readType : (depth : Nat) → Reader TypeSyntax
  | 0 => readTypeWith fun _ => none
  | depth + 1 => readTypeWith (readType depth)

/-- The greatest number of tuples that may stand around a name. -/
def maximumDepth : Nat := 79

/-- The shape of a text that is a type as a whole. -/
def read? (text : String) : Option TypeSyntax :=
  match readType maximumDepth text.toList with
  | some (type, []) => some type
  | _ => none

mutual
/-- The type that a shape stands for, or the fault of its first bad name. -/
def toType : TypeSyntax → Except TypeFault AbiType
  | .name text => AbiType.ofName text
  | .qualified => .ok (.uint ⟨8, by decide⟩)
  | .tuple members => do return .tuple (← toTypes members)
  | .array element => do return .array (← element.toType)
  | .fixedArray element length => do return .fixedArray (← element.toType) length

/-- The types that the shapes stand for, from left to right. -/
def toTypes : List TypeSyntax → Except TypeFault (List AbiType)
  | [] => .ok []
  | type :: types => do
    let first ← type.toType
    let others ← toTypes types
    return first :: others
end

end TypeSyntax

namespace AbiType

/-- The type that a text stands for. -/
def parse (text : String) : Except TypeFault AbiType :=
  match TypeSyntax.read? text with
  | none => .error .ungrammatical
  | some type => type.toType

/-- The type that a text stands for, if it stands for one. -/
def parse? (text : String) : Option AbiType := (parse text).toOption

example : parse "(uint8,\tbool[2] )[]" =
    .ok (.array (.tuple [.uint ⟨8, by decide⟩, .fixedArray .bool ⟨2, by decide⟩])) := by cbv

example : parse "(foo,bar[0])" = .error .ungrammatical ∧
    parse "(foo,bar[1])" = .error (.unknownName "foo") := by cbv

end AbiType

end ContractAbi
