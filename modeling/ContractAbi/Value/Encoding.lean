import ContractAbi.Text.Utf8
import ContractAbi.Value

/-!
# Encoding of values

A sequence of values is laid out as heads, then tails. A static value stands in the head itself; a
dynamic one stands in the tail, and its head is the offset of that place, counted from the start of
the sequence.
-/

namespace ContractAbi

/-- A value in a sequence: its bytes, and whether they stand behind an offset. -/
structure Part where
  isDynamic : Bool
  body : Bytes
  deriving DecidableEq

namespace Part

/-- The number of bytes that the part takes among the heads. -/
def headSize (part : Part) : Nat := if part.isDynamic then 32 else part.body.length

/-- The bytes that the part puts among the tails. -/
def tail (part : Part) : Bytes := if part.isDynamic then part.body else []

/-- The bytes that the part puts among the heads when its tail starts at `offset`. -/
def head (part : Part) (offset : Nat) : Bytes :=
  if part.isDynamic then Bytes.ofNat 32 offset else part.body

/-- The heads of a sequence whose tails start at `offset`. -/
def heads : (offset : Nat) → List Part → Bytes
  | _, [] => []
  | offset, part :: parts => part.head offset ++ heads (offset + part.tail.length) parts

/-- The tails of a sequence. -/
def tails (parts : List Part) : Bytes := parts.flatMap tail

/-- The number of bytes that the heads of a sequence take. -/
def headsSize (parts : List Part) : Nat :=
  parts.foldr (fun part size => part.headSize + size) 0

/-- The bytes of a sequence. -/
def layout (parts : List Part) : Bytes := heads (headsSize parts) parts ++ tails parts

end Part

namespace Value

/-- The number of zero bytes that fill a byte string up to whole words. -/
def paddingSize (length : Nat) : Nat := (32 - length % 32) % 32

/-- A byte string behind its length, filled up with zeros to whole words. -/
def encodeBytes (content : Bytes) : Bytes :=
  Bytes.ofNat 32 content.length ++ content ++ Bytes.zeros (paddingSize content.length)

mutual
/-- The bytes of a value at the place where it stands. -/
def encode : Value → Bytes
  | .bool value => Bytes.ofNat 32 (if value then 1 else 0)
  | .uint number _ => number.toWord.1
  | .int number _ => number.toWord.1
  | .fixedBytes word _ => word.1
  | .address place => Bytes.zeros 12 ++ place.bytes.1
  | .function pointer => pointer.1 ++ Bytes.zeros 8
  | .bytes content => encodeBytes content
  | .string content => encodeBytes (Text.utf8 content)
  | .array items => Bytes.ofNat 32 items.length ++ Part.layout (parts items)
  | .fixedArray items => Part.layout (parts items)
  | .tuple items => Part.layout (parts items)

/-- The values as parts of a sequence. -/
def parts : List Value → List Part
  | [] => []
  | value :: values => ⟨value.isDynamic, value.encode⟩ :: parts values
end

/-- The bytes of a sequence of values. -/
def encodeSequence (values : List Value) : Bytes := Part.layout (parts values)

end Value

end ContractAbi
