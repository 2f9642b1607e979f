import ContractAbi.Argument.Coercion
import ContractAbi.Call.Alignment
import ContractAbi.Call.Arrangement
import ContractAbi.Interface.Signature
import ContractAbi.Value.Encoding

/-!
# Codecs

A codec is the set of operations that resolution and log matching rest on. Only coercion and
decoding have to be given; the other operations default to those of the elements themselves and to
the encoding of coerced values.
-/

namespace ContractAbi

/-- The values that arguments stand for at the types, one by one. -/
def coerceArguments (coerce : String → Argument → Option Value) :
    List String → List Argument → Except EncodingError (List Value)
  | type :: types, argument :: arguments =>
    match coerce type argument with
    | none => .error (.valueMismatch type argument.readableType)
    | some value => (value :: ·) <$> coerceArguments coerce types arguments
  | _, _ => .ok []

/-- The encoding of arguments as a sequence of values of the types. -/
def encodeArguments (coerce : String → Argument → Option Value) (types : List String)
    (arguments : List Argument) : Except EncodingError Bytes :=
  if types.length ≠ arguments.length then
    .error (.argumentCount types.length arguments.length)
  else Value.encodeSequence <$> coerceArguments coerce types arguments

/-- The types that texts stand for, one by one. -/
def parseTypes : List String → Except EncodingError (List AbiType)
  | [] => .ok []
  | text :: texts =>
    match AbiType.parse text with
    | .error fault => .error (.invalidType text fault)
    | .ok type => (type :: ·) <$> parseTypes texts

/-- The values of the types that data holds, on a host with room for so many bytes. -/
def decodeData (room : Nat) (types : List String) (data : Bytes) :
    Except EncodingError (List Value) :=
  match parseTypes types with
  | .error fault => .error fault
  | .ok types => (Value.decodeSequence room types data).mapError .undecodable

/-- The operations that resolution and log matching rest on. -/
structure Codec where
  /-- The value that an argument stands for at a type. -/
  coerce : String → Argument → Option Value
  /-- The values of the types that data holds. -/
  decode : List String → Bytes → Except EncodingError (List Value)
  /-- Whether an argument can be encoded at a type. -/
  isEncodable : String → Argument → Bool := fun type argument => (coerce type argument).isSome
  /-- Positional and named arguments in declared order. -/
  arrange : Element → List Argument → NamedArguments → Except EncodingError (List Argument) :=
    Element.arrange
  /-- Canonical types, and arguments in the shape of those types. -/
  align : Element → List Argument → Except EncodingError (List String × List Argument) :=
    Element.align
  /-- The selector of an element, if it has one. -/
  selector? : Element → Option Selector := Element.selector?
  /-- The hash that opens the topics of an event's logs. -/
  signatureHash : Event → Word := Event.signatureHash
  /-- The encoding of arguments at the types. -/
  encode : List String → List Argument → Except EncodingError Bytes := encodeArguments coerce

/-- The codec of the standard types on a host that can set `room` bytes apart for a fixed array.
Strictly, fixed byte strings must be supplied in full. -/
def Codec.standard (strict : Bool) (room : Nat) : Codec where
  coerce := Argument.coerceText strict
  decode := decodeData room

@[simp] theorem Codec.coerce_standard (strict : Bool) (room : Nat) :
    (Codec.standard strict room).coerce = Argument.coerceText strict := rfl

end ContractAbi
