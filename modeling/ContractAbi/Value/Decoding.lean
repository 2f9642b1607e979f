import ContractAbi.Text.Utf8
import ContractAbi.Value

/-!
# Decoding of values

A cursor reads words of a buffer in order. Whatever stands behind an offset, and every tuple and
fixed array, is read by a cursor of its own that starts there, up to sixteen levels deep. Neither
padding nor what follows the last value is looked at. Before anything is read, there must be room
for the items of every fixed array that the types mention, whether the data gets to it or not. How
much room there is depends on the host.
-/

namespace ContractAbi

/-- Why bytes are no encoding of the demanded types. -/
inductive DecodingFault where
  /-- The bytes end too early. -/
  | overrun
  /-- Values are nested too deeply. -/
  | recursionLimit
  /-- An offset or a length is too large for any buffer. -/
  | oversized (word : Word)
  /-- The items of a fixed array take more room than can be counted. -/
  | uncountable
  /-- The items of a fixed array take more room than the host has. -/
  | noRoom
  deriving DecidableEq

/-- The wording of a fault. -/
def DecodingFault.message : DecodingFault → String
  | .overrun => "ABI decoding failed: buffer overrun while deserializing"
  | .recursionLimit => "ABI decoding failed: recursion limit of 16 exceeded during decoding"
  | .oversized word =>
    "type check failed for \"offset (usize)\" with data: " ++ String.ofList (Hex.digits word.1)
  | .uncountable =>
    "memory allocation failed because the computed capacity exceeded the collection's maximum"
  | .noRoom => "memory allocation failed because the memory allocator returned an error"

/-- A place in a buffer, and how many cursors it stands below. -/
structure Cursor where
  /-- The bytes that offsets count in. -/
  buffer : Bytes
  /-- The bytes that are still to be read. -/
  rest : Bytes
  depth : Nat

namespace Cursor

/-- A cursor at the start of data. -/
def ofBytes (data : Bytes) : Cursor := ⟨data, data, 0⟩

/-- The greatest depth of a cursor. -/
def maximumDepth : Nat := 16

/-- A cursor one level deeper at the start of the given bytes. -/
def enter (cursor : Cursor) (bytes : Bytes) : Except DecodingFault Cursor :=
  if cursor.depth ≥ maximumDepth then .error .recursionLimit
  else .ok ⟨bytes, bytes, cursor.depth + 1⟩

/-- The cursor one level deeper at an offset of the buffer. -/
def child (cursor : Cursor) (offset : Nat) : Except DecodingFault Cursor := do
  let inside ← cursor.enter (cursor.buffer.drop offset)
  if offset > cursor.buffer.length then throw .overrun else return inside

/-- The next `count` bytes. -/
def take (cursor : Cursor) (count : Nat) : Except DecodingFault (SizedBytes count × Cursor) :=
  match SizedBytes.ofBytes? count (cursor.rest.take count) with
  | some bytes => .ok (bytes, { cursor with rest := cursor.rest.drop count })
  | none => .error .overrun

/-- The next word. -/
def word (cursor : Cursor) : Except DecodingFault (Word × Cursor) := cursor.take 32

/-- The next word as an offset or a length, which must be below `2 ^ 64`. -/
def size (cursor : Cursor) : Except DecodingFault (Nat × Cursor) := do
  let (word, next) ← cursor.word
  if word.toNat < 1 <<< 64 then return (word.toNat, next) else throw (.oversized word)

/-- The number of whole words that are left. -/
def wordsLeft (cursor : Cursor) : Nat := cursor.rest.length / 32

/-- The cursor behind the next offset, and the place after that offset. -/
def follow (cursor : Cursor) : Except DecodingFault (Cursor × Cursor) := do
  let (offset, next) ← cursor.size
  return (← cursor.child offset, next)

/-- The byte string behind the next offset. -/
def bytes (cursor : Cursor) : Except DecodingFault (Bytes × Cursor) := do
  let (inside, next) ← cursor.follow
  let (length, inside) ← inside.size
  let (content, _) ← inside.take length
  return (content.1, next)

end Cursor

/-- Reads a value and moves on behind it. -/
abbrev Decoder (α : Type) := Cursor → Except DecodingFault (α × Cursor)

namespace Decoder

/-- Reads one value `count` times. -/
def replicate {α : Type} (item : Decoder α) : (count : Nat) → Decoder (List α)
  | 0, cursor => .ok ([], cursor)
  | count + 1, cursor => do
    let (first, cursor) ← item cursor
    let (others, cursor) ← replicate item count cursor
    return (first :: others, cursor)

/-- Reads items one level deeper: behind an offset when they are dynamic, in place otherwise. -/
def nested {α : Type} (isDynamic : Bool) (items : Decoder α) : Decoder α := fun cursor =>
  if isDynamic then do
    let (inside, next) ← cursor.follow
    let (value, _) ← items inside
    return (value, next)
  else do
    let inside ← cursor.enter cursor.rest
    let (value, inside) ← items inside
    return (value, { cursor with rest := inside.rest })

/-- Reads the items of a dynamic array. Items that take no space are not read at all. -/
def counted {α : Type} (itemWords : Nat) (item : Decoder α) : Decoder (List α) := fun cursor => do
  let (inside, next) ← cursor.follow
  let (count, inside) ← inside.size
  if count = 0 ∨ itemWords = 0 then return ([], next)
  let inside ← inside.enter inside.rest
  if inside.wordsLeft < count * itemWords then throw .overrun
  let (items, _) ← replicate item count inside
  return (items, next)

end Decoder

/-! ## Room for fixed arrays -/

namespace AbiType

/-- The bytes that are set apart for one item of a fixed array. -/
def itemRoom : Nat := 40

/-- The most bytes that can be counted. -/
def countableRoom : Nat := (1 <<< 63) - 1

mutual
/-- The first reason why a host that can set `room` bytes apart has no room for a fixed array of the
type, from the inside out. -/
def roomFault? (room : Nat) : AbiType → Option DecodingFault
  | .array element => element.roomFault? room
  | .fixedArray element length =>
    match element.roomFault? room with
    | some fault => some fault
    | none =>
      if length.1 * itemRoom > countableRoom then some .uncountable
      else if length.1 * itemRoom > room then some .noRoom
      else none
  | .tuple members => firstRoomFault? room members
  | _ => none

/-- The first reason why the host has no room for a fixed array of the types. -/
def firstRoomFault? (room : Nat) : List AbiType → Option DecodingFault
  | [] => none
  | type :: types => type.roomFault? room <|> firstRoomFault? room types
end

end AbiType

namespace Value

mutual
/-- Reads a value of a type. -/
def decode : AbiType → Decoder Value
  | .bool, cursor => do
    let (word, cursor) ← cursor.word
    return (.bool (word.toNat ≠ 0), cursor)
  | .uint width, cursor => do
    let (word, cursor) ← cursor.word
    return (.uint (Uint256.ofWord word) width.1, cursor)
  | .int width, cursor => do
    let (word, cursor) ← cursor.word
    return (.int (Int256.ofWord word) width.1, cursor)
  | .fixedBytes size, cursor => do
    let (word, cursor) ← cursor.word
    return (.fixedBytes word size.1, cursor)
  | .address, cursor => do
    let (word, cursor) ← cursor.word
    return (.address ⟨⟨word.1.drop 12, by simp [word.2]⟩⟩, cursor)
  | .function, cursor => do
    let (word, cursor) ← cursor.word
    return (.function ⟨word.1.take 24, by simp [word.2]⟩, cursor)
  | .bytes, cursor => do
    let (content, cursor) ← cursor.bytes
    return (.bytes content, cursor)
  | .string, cursor => do
    let (content, cursor) ← cursor.bytes
    return (.string (Text.ofUtf8Lossy content), cursor)
  | .array element, cursor => do
    let (items, cursor) ← Decoder.counted element.minimumWords (decode element) cursor
    return (.array items, cursor)
  | .fixedArray element length, cursor => do
    let items := Decoder.replicate (decode element) length.1
    let (items, cursor) ← Decoder.nested element.isDynamic items cursor
    return (.fixedArray items, cursor)
  | .tuple members, cursor => do
    let items := decodeEach members
    let (items, cursor) ← Decoder.nested (AbiType.anyDynamic members) items cursor
    return (.tuple items, cursor)

/-- Reads one value of each type in order. -/
def decodeEach : List AbiType → Decoder (List Value)
  | [], cursor => .ok ([], cursor)
  | type :: types, cursor => do
    let (first, cursor) ← decode type cursor
    let (others, cursor) ← decodeEach types cursor
    return (first :: others, cursor)
end

/-- The values of the given types that data holds, on a host with room for so many bytes. When no
type takes any space there are none and the data is not read. -/
def decodeSequence (room : Nat) (types : List AbiType) (data : Bytes) :
    Except DecodingFault (List Value) :=
  if AbiType.allZeroSized types then .ok []
  else if data.length / 32 < AbiType.sumMinimumWords types then .error .overrun
  else
    match AbiType.firstRoomFault? room types with
    | some fault => .error fault
    | none => (decodeEach types (Cursor.ofBytes data)).map Prod.fst

end Value

end ContractAbi
