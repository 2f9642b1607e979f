import ContractAbi.Bytes

/-!
# UTF-8

The bytes of a text, and the text of bytes. Strict reading refuses bytes that are no text; lenient
reading puts one replacement character for each run of bytes that begins like a character and does
not go on like one.
-/

namespace ContractAbi.Text

/-- The bytes of a text. -/
def utf8 (text : String) : Bytes := text.toByteArray.data.toList

/-- The text that the bytes spell, if they spell one. -/
def ofUtf8? (bytes : Bytes) : Option String := String.fromUTF8? ⟨bytes.toArray⟩

/-- Strict reading gives back the text that was written. -/
theorem ofUtf8?_utf8 (text : String) : ofUtf8? (utf8 text) = some text := by
  have whole : (⟨(utf8 text).toArray⟩ : ByteArray) = text.toByteArray := rfl
  simp only [ofUtf8?, String.fromUTF8?, whole]
  exact dif_pos text.isValidUTF8

/-- The ranges of the bytes that must follow a leading byte; nothing opens with any other byte. -/
def continuations? (lead : UInt8) : Option (List (UInt8 × UInt8)) :=
  if lead < 0x80 then some []
  else if lead < 0xc2 then none
  else if lead < 0xe0 then some [(0x80, 0xbf)]
  else if lead = 0xe0 then some [(0xa0, 0xbf), (0x80, 0xbf)]
  else if lead = 0xed then some [(0x80, 0x9f), (0x80, 0xbf)]
  else if lead < 0xf0 then some [(0x80, 0xbf), (0x80, 0xbf)]
  else if lead = 0xf0 then some [(0x90, 0xbf), (0x80, 0xbf), (0x80, 0xbf)]
  else if lead < 0xf4 then some [(0x80, 0xbf), (0x80, 0xbf), (0x80, 0xbf)]
  else if lead = 0xf4 then some [(0x80, 0x8f), (0x80, 0xbf), (0x80, 0xbf)]
  else none

/-- The leading bytes that lie in the given ranges, one each. -/
def takeInRanges : List (UInt8 × UInt8) → Bytes → Bytes
  | (first, last) :: ranges, byte :: bytes =>
    if first ≤ byte ∧ byte ≤ last then byte :: takeInRanges ranges bytes else []
  | _, _ => []

/-- The character of a leading byte and all its continuation bytes. -/
def assemble (lead : UInt8) (continuation : Bytes) : Char :=
  let marker := match continuation.length with
    | 0 => 0
    | 1 => 0xc0
    | 2 => 0xe0
    | _ => 0xf0
  Char.ofNat <|
    continuation.foldl (fun number byte => 64 * number + byte.toNat % 64) (lead.toNat - marker)

/-- The characters of the bytes, with a replacement character for each run that is none. -/
def charsLossy : Bytes → List Char
  | [] => []
  | lead :: rest =>
    match continuations? lead with
    | none => '\uFFFD' :: charsLossy rest
    | some ranges =>
      let continuation := takeInRanges ranges rest
      let isWhole := continuation.length = ranges.length
      let char := if isWhole then assemble lead continuation else '\uFFFD'
      char :: charsLossy (rest.drop continuation.length)
termination_by bytes => bytes.length

/-- The text of bytes that may be no text. -/
def ofUtf8Lossy (bytes : Bytes) : String :=
  (ofUtf8? bytes).getD (String.ofList (charsLossy bytes))

end ContractAbi.Text
