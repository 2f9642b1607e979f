import ContractAbi.AbiType.Grammar
import ContractAbi.Argument
import ContractAbi.Value

/-!
# Coercion of loose arguments

A loose argument becomes a value of a type when it can stand for one: integers by their number
whatever their sign form, byte strings also as digits behind `0x`, addresses also as twenty bytes or
checksummed text, and lists item by item. Mappings never become values.
-/

namespace ContractAbi.Argument

/-- The argument as an address. -/
def address? : Argument → Option Address
  | .address place => some place
  | .bytes content => Address.ofBytes? content
  | .text content => Address.ofChecksummed? content
  | _ => none

/-- The argument as a byte string. -/
def bytes? : Argument → Option Bytes
  | .bytes content => some content
  | .text content =>
    if "0x".toList.isPrefixOf content.toList then (Hex.decode content.toList).toOption else none
  | _ => none

/-- The argument as an unsigned integer. -/
def unsigned? : Argument → Option Uint256
  | .uint number => some number
  | .int number => if 0 ≤ number.toInt then Uint256.ofNat? number.toInt.toNat else none
  | _ => none

/-- The argument as a signed integer. -/
def signed? : Argument → Option Int256
  | .int number => some number
  | .uint number => Int256.ofInt? number.toNat
  | _ => none

/-- The argument as a text. -/
def text? : Argument → Option String
  | .text content => some content
  | _ => none

/-- The argument as a truth value. -/
def bool? : Argument → Option Bool
  | .bool value => some value
  | _ => none

/-- The argument as a function pointer. -/
def function? : Argument → Option (SizedBytes 24)
  | .bytes content => SizedBytes.ofBytes? 24 content
  | _ => none

/-- The items of a list. -/
def list? : Argument → Option (List Argument)
  | .list items => some items
  | _ => none

/-- The word of a fixed byte string of `size` bytes. Strictly, exactly that many bytes must be
supplied; otherwise fewer are filled up with zeros. -/
def fixedBytes (strict : Bool) (size : Nat) (content : Bytes) : Option Value :=
  if content.length = size ∨ (content.length < size ∧ ¬strict) then
    some (.fixedBytes (SizedBytes.padRight 32 content) size)
  else none

mutual
/-- The value of a type that the argument stands for. -/
def coerce (strict : Bool) : AbiType → Argument → Option Value
  | .bool, argument => argument.bool?.map .bool
  | .uint width, argument =>
    match argument.unsigned? with
    | some number => if number.Fits width.1 then some (.uint number width.1) else none
    | none => none
  | .int width, argument =>
    match argument.signed? with
    | some number => if number.Fits width.1 then some (.int number width.1) else none
    | none => none
  | .fixedBytes size, argument => argument.bytes?.bind (fixedBytes strict size.1)
  | .address, argument => argument.address?.map .address
  | .function, argument => argument.function?.map .function
  | .bytes, argument => argument.bytes?.map .bytes
  | .string, argument => argument.text?.map .string
  | .array element, argument =>
    match argument.list? with
    | some items => (items.mapM (coerce strict element)).map .array
    | none => none
  | .fixedArray element length, argument =>
    match argument.list? with
    | some items =>
      if items.length = length.1 then (items.mapM (coerce strict element)).map .fixedArray else none
    | none => none
  | .tuple members, argument =>
    match argument.list? with
    | some items => (coerceEach strict members items).map .tuple
    | none => none

/-- The values of the types, one by one, that equally many arguments stand for. -/
def coerceEach (strict : Bool) : List AbiType → List Argument → Option (List Value)
  | [], [] => some []
  | type :: types, argument :: arguments =>
    match coerce strict type argument, coerceEach strict types arguments with
    | some value, some values => some (value :: values)
    | _, _ => none
  | _, _ => none
end

/-- The value that the argument stands for at the type that a text stands for. -/
def coerceText (strict : Bool) (type : String) (argument : Argument) : Option Value :=
  (AbiType.parse? type).bind fun type => coerce strict type argument

end ContractAbi.Argument
