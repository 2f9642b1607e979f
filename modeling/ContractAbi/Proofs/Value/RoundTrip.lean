import ContractAbi.AbiType.Nesting
import ContractAbi.Proofs.Outcome
import ContractAbi.Proofs.Value.Typing
import ContractAbi.Value.Decoding

/-!
# Decoding what was encoded

A cursor that stands at the head of an encoded value reads that value and stops behind the head. For
a dynamic value the head is an offset, and the value itself stands at that place of the buffer.
`Value.readBack` shows this for all types at once, and `Value.decodeSequence_encodeSequence` for a
whole sequence of values.
-/

namespace ContractAbi

namespace Cursor

/-- The next bytes are those at the front. -/
theorem take_append {count : Nat} (buffer : Bytes) (bytes : SizedBytes count) (more : Bytes)
    (depth : Nat) :
    (⟨buffer, bytes.1 ++ more, depth⟩ : Cursor).take count =
      .ok (bytes, ⟨buffer, more, depth⟩) := by
  have front : (bytes.1 ++ more).take count = bytes.1 := List.take_left' bytes.2
  have back : (bytes.1 ++ more).drop count = more := List.drop_left' bytes.2
  simp [take, front, back, SizedBytes.ofBytes?]

/-- A small number at the front is read as a size. -/
theorem size_append {number : Nat} (buffer : Bytes) (small : number < 1 <<< 64) (more : Bytes)
    (depth : Nat) :
    (⟨buffer, Bytes.ofNat 32 number ++ more, depth⟩ : Cursor).size =
      .ok (number, ⟨buffer, more, depth⟩) := by
  have value : (SizedBytes.ofNat 32 number).toNat = number := by
    rw [SizedBytes.toNat_ofNat]
    exact Nat.mod_eq_of_lt (by omega)
  have read := take_append buffer (SizedBytes.ofNat 32 number) more depth
  rw [show (SizedBytes.ofNat 32 number).1 = Bytes.ofNat 32 number from rfl] at read
  simp only [size, word, read, Outcome.ok_bind, value, small, ↓reduceIte, Outcome.pure_eq]

/-- A body stands at an offset of a buffer that is short enough for its offsets to be read. -/
def StandsAt (buffer : Bytes) (offset : Nat) (body : Bytes) : Prop :=
  buffer.length < 1 <<< 64 ∧ offset ≤ buffer.length ∧ ∃ after, buffer.drop offset = body ++ after

variable {buffer : Bytes} {offset depth : Nat}

/-- The front of a body stands where the body does. -/
theorem StandsAt.front {front back : Bytes} (stands : StandsAt buffer offset (front ++ back)) :
    StandsAt buffer offset front := by
  obtain ⟨short, inside, after, found⟩ := stands
  exact ⟨short, inside, back ++ after, by rw [found, List.append_assoc]⟩

/-- The back of a body stands behind its front. -/
theorem StandsAt.back {front back : Bytes} (stands : StandsAt buffer offset (front ++ back)) :
    StandsAt buffer (offset + front.length) back := by
  obtain ⟨short, inside, after, found⟩ := stands
  have lengths := congrArg List.length found
  simp only [List.length_drop, List.length_append] at lengths
  refine ⟨short, by omega, after, ?_⟩
  rw [← List.drop_drop, found, List.append_assoc, List.drop_left]

/-- A cursor follows an offset to the body that stands there, one level deeper. -/
theorem follow_append {body : Bytes} (stands : StandsAt buffer offset body)
    (shallow : depth < maximumDepth) (more : Bytes) :
    ∃ after, (body ++ after).length < 1 <<< 64 ∧
      (⟨buffer, Bytes.ofNat 32 offset ++ more, depth⟩ : Cursor).follow =
        .ok (⟨body ++ after, body ++ after, depth + 1⟩, ⟨buffer, more, depth⟩) := by
  obtain ⟨short, inside, after, found⟩ := stands
  have read := size_append buffer (Nat.lt_of_le_of_lt inside short) more depth
  refine ⟨after, ?_, ?_⟩
  · rw [← found, List.length_drop]
    omega
  · simp only [follow, read, Outcome.ok_bind, child, enter, Nat.not_le.2 shallow,
      Nat.not_lt.2 inside, gt_iff_lt, ↓reduceIte, found, Outcome.pure_eq]

/-- A byte string is read behind its offset and its length, whatever follows it. -/
theorem bytes_append {content : Bytes} (stands : StandsAt buffer offset (Value.encodeBytes content))
    (shallow : depth < maximumDepth) (more : Bytes) :
    (⟨buffer, Bytes.ofNat 32 offset ++ more, depth⟩ : Cursor).bytes =
      .ok (content, ⟨buffer, more, depth⟩) := by
  obtain ⟨after, short, followed⟩ := follow_append stands shallow more
  have bounded : content.length < 1 <<< 64 := by
    simp only [Value.encodeBytes, List.length_append] at short
    omega
  simp only [Value.encodeBytes, List.append_assoc] at followed
  simp only [bytes, followed, Outcome.ok_bind, size_append _ bounded,
    take_append _ (⟨content, rfl⟩ : SizedBytes content.length), Outcome.pure_eq]

end Cursor

namespace AbiType

theorem anyHasEmptyTuple_eq_false_iff {types : List AbiType} :
    anyHasEmptyTuple types = false ↔ ∀ type ∈ types, type.hasEmptyTuple = false := by
  induction types with
  | nil => simp [anyHasEmptyTuple]
  | cons type types inductionHypothesis => simp [anyHasEmptyTuple, inductionHypothesis]

/-- A tuple is free of empty tuples when it is none and its members are free of them. -/
theorem hasEmptyTuple_tuple_eq_false_iff {members : List AbiType} :
    (tuple members).hasEmptyTuple = false ↔
      members ≠ [] ∧ ∀ member ∈ members, member.hasEmptyTuple = false := by
  cases members with
  | nil => simp [hasEmptyTuple]
  | cons first others => simp [hasEmptyTuple, anyHasEmptyTuple_eq_false_iff]

/-- A type without empty tuples takes at least one word. -/
theorem minimumWords_pos {type : AbiType} (solid : type.hasEmptyTuple = false) :
    0 < type.minimumWords := by
  induction type with
  | fixedArray element length inductionHypothesis =>
    exact Nat.mul_pos length.2.1 (inductionHypothesis solid)
  | tuple members inductionHypothesis =>
    obtain ⟨some, solidMembers⟩ := hasEmptyTuple_tuple_eq_false_iff.1 solid
    cases members with
    | nil => exact absurd rfl some
    | cons first others =>
      have least := inductionHypothesis first List.mem_cons_self
        (solidMembers first List.mem_cons_self)
      simp only [minimumWords, sumMinimumWords]
      omega
  | _ => simp [minimumWords]

/-- A type without empty tuples is not zero-sized. -/
theorem isZeroSized_eq_false {type : AbiType} (solid : type.hasEmptyTuple = false) :
    type.isZeroSized = false := by
  induction type with
  | array element inductionHypothesis => exact inductionHypothesis solid
  | fixedArray element length inductionHypothesis => exact inductionHypothesis solid
  | tuple members inductionHypothesis =>
    obtain ⟨some, solidMembers⟩ := hasEmptyTuple_tuple_eq_false_iff.1 solid
    cases members with
    | nil => exact absurd rfl some
    | cons first others =>
      have sized := inductionHypothesis first List.mem_cons_self
        (solidMembers first List.mem_cons_self)
      simp [isZeroSized, allZeroSized, sized]
  | _ => rfl

theorem deepest_le_iff {types : List AbiType} {bound : Nat} :
    deepest types ≤ bound ↔ ∀ type ∈ types, type.decoderDepth ≤ bound := by
  induction types with
  | nil => simp [deepest]
  | cons first others inductionHypothesis =>
    simp only [deepest, Nat.max_le, inductionHypothesis, List.forall_mem_cons]

theorem deepest_replicate_le (count : Nat) (element : AbiType) :
    deepest (List.replicate count element) ≤ element.decoderDepth := by
  rw [deepest_le_iff]
  intro type member
  exact Nat.le_of_eq (congrArg decoderDepth (List.eq_of_mem_replicate member))

end AbiType

namespace Value

/-- A value is read back at a type when a cursor at its head reads it and stops behind the head,
wherever an offset in the head may lead. -/
def ReadBack (value : Value) (type : AbiType) : Prop :=
  ∀ (buffer : Bytes) (offset : Nat) (more : Bytes) (depth : Nat),
    depth + type.decoderDepth ≤ Cursor.maximumDepth →
    (value.isDynamic = true → Cursor.StandsAt buffer offset value.encode) →
    decode type ⟨buffer, Part.head ⟨value.isDynamic, value.encode⟩ offset ++ more, depth⟩ =
      .ok (value, ⟨buffer, more, depth⟩)

/-- Reading equally many items of one type is reading a sequence of that type, repeated. -/
theorem replicate_decode (element : AbiType) (count : Nat) :
    Decoder.replicate (decode element) count = decodeEach (List.replicate count element) := by
  funext cursor
  induction count generalizing cursor with
  | zero => rfl
  | succ count inductionHypothesis =>
    simp only [Decoder.replicate, List.replicate_succ, decodeEach, inductionHypothesis]

/-- Only dynamic values have tails. -/
theorem tails_eq_nil {values : List Value} (static : anyDynamic values = false) :
    Part.tails (parts values) = [] := by
  induction values with
  | nil => rfl
  | cons value values inductionHypothesis =>
    simp only [anyDynamic, Bool.or_eq_false_iff] at static
    simp [parts, Part.tail, static.1, inductionHypothesis static.2]

/-- A sequence of values is read from its heads, when its tails stand at the offset. -/
theorem decodeEach_heads {values : List Value} {types : List AbiType}
    (each : List.Forall₂ ReadBack values types) {buffer : Bytes} {offset depth : Nat}
    (shallow : depth + AbiType.deepest types ≤ Cursor.maximumDepth)
    (stand : anyDynamic values = true → Cursor.StandsAt buffer offset (Part.tails (parts values)))
    (more : Bytes) :
    decodeEach types ⟨buffer, Part.heads offset (parts values) ++ more, depth⟩ =
      .ok (values, ⟨buffer, more, depth⟩) := by
  induction each generalizing offset with
  | nil => rfl
  | @cons value type values types first _ inductionHypothesis =>
    simp only [AbiType.deepest] at shallow
    simp only [anyDynamic, Bool.or_eq_true, parts, Part.tails_cons] at stand
    have firstStands : value.isDynamic = true → Cursor.StandsAt buffer offset value.encode := by
      intro dynamic
      have front := (stand (.inl dynamic)).front
      simpa only [Part.tail, dynamic, ↓reduceIte] using front
    have restStand (dynamic : anyDynamic values = true) := (stand (.inr dynamic)).back
    simp only [parts, Part.heads, List.append_assoc, decodeEach,
      first buffer offset _ depth (by omega) firstStands,
      inductionHypothesis (by omega) restStand, Outcome.ok_bind, Outcome.pure_eq]

/-- A cursor at the start of a sequence reads it up to its tails. -/
theorem decodeEach_layout {values : List Value} {types : List AbiType}
    (each : List.Forall₂ ReadBack values types) {depth : Nat}
    (shallow : depth + AbiType.deepest types ≤ Cursor.maximumDepth) (after : Bytes)
    (short : anyDynamic values = true → (Part.layout (parts values) ++ after).length < 1 <<< 64) :
    decodeEach types
        ⟨Part.layout (parts values) ++ after, Part.layout (parts values) ++ after, depth⟩ =
      .ok (values,
        ⟨Part.layout (parts values) ++ after, Part.tails (parts values) ++ after, depth⟩) := by
  have stand (dynamic : anyDynamic values = true) :
      Cursor.StandsAt (Part.layout (parts values) ++ after) (Part.headsSize (parts values))
        (Part.tails (parts values)) := by
    refine ⟨short dynamic, ?_, after, ?_⟩
    · rw [List.length_append, Part.length_layout]
      omega
    · rw [Part.layout, List.append_assoc]
      exact List.drop_left' (Part.length_heads _ _)
  have read := decodeEach_heads each shallow stand (Part.tails (parts values) ++ after)
  rwa [← List.append_assoc, ← Part.layout] at read

/-- A sequence one level deeper is read in place, or behind an offset. -/
theorem nested_decodeEach {values : List Value} {types : List AbiType}
    (each : List.Forall₂ ReadBack values types) {buffer : Bytes} {offset depth : Nat}
    (shallow : depth + (1 + AbiType.deepest types) ≤ Cursor.maximumDepth)
    (stands : anyDynamic values = true →
      Cursor.StandsAt buffer offset (Part.layout (parts values))) (more : Bytes) :
    Decoder.nested (anyDynamic values) (decodeEach types)
        ⟨buffer, Part.head ⟨anyDynamic values, Part.layout (parts values)⟩ offset ++ more, depth⟩ =
      .ok (values, ⟨buffer, more, depth⟩) := by
  have deeper : depth + 1 + AbiType.deepest types ≤ Cursor.maximumDepth := by omega
  have below : depth < Cursor.maximumDepth := by omega
  cases dynamic : anyDynamic values with
  | true =>
    obtain ⟨after, short, followed⟩ := Cursor.follow_append (stands dynamic) below more
    simp only [Decoder.nested, Part.head, ↓reduceIte, followed,
      decodeEach_layout each deeper after fun _ => short, Outcome.ok_bind, Outcome.pure_eq]
  | false =>
    have static (isDynamic : anyDynamic values = true) :
        (Part.layout (parts values) ++ more).length < 1 <<< 64 := by simp [dynamic] at isDynamic
    have read := decodeEach_layout each deeper more static
    simp only [Decoder.nested, Part.head, Bool.false_eq_true, ↓reduceIte, Cursor.enter, ge_iff_le,
      Nat.not_le.2 below, Outcome.ok_bind, read, tails_eq_nil dynamic, List.nil_append,
      Outcome.pure_eq]

/-- The items of a dynamic array are read behind its offset and its count. -/
theorem counted_decode {items : List Value} {element : AbiType} (solid : 0 < element.minimumWords)
    (each : List.Forall₂ ReadBack items (List.replicate items.length element))
    (least : 32 * (items.length * element.minimumWords) ≤ (Part.layout (parts items)).length)
    {buffer : Bytes} {offset depth : Nat}
    (shallow : depth + (2 + element.decoderDepth) ≤ Cursor.maximumDepth)
    (stands : Cursor.StandsAt buffer offset (encode (.array items))) (more : Bytes) :
    Decoder.counted element.minimumWords (decode element)
        ⟨buffer, Bytes.ofNat 32 offset ++ more, depth⟩ =
      .ok (items, ⟨buffer, more, depth⟩) := by
  have below : depth < Cursor.maximumDepth := by omega
  have insideBelow : depth + 1 < Cursor.maximumDepth := by omega
  obtain ⟨after, short, followed⟩ := Cursor.follow_append stands below more
  simp only [encode, List.append_assoc] at short followed
  simp only [List.length_append] at short
  have counted : items.length ≤ items.length * element.minimumWords :=
    Nat.le_mul_of_pos_right _ solid
  have bounded : items.length < 1 <<< 64 := by omega
  simp only [Decoder.counted, followed, Outcome.ok_bind, Cursor.size_append _ bounded]
  by_cases empty : items.length = 0
  · rw [List.length_eq_zero_iff] at empty
    simp [empty]
  have enough : ¬(Part.layout (parts items) ++ after).length / 32 <
      items.length * element.minimumWords := by
    rw [List.length_append]
    omega
  have deepest := AbiType.deepest_replicate_le items.length element
  have itemsShallow : depth + 1 + 1 + AbiType.deepest (List.replicate items.length element) ≤
      Cursor.maximumDepth := by omega
  have itemsShort : (Part.layout (parts items) ++ after).length < 1 <<< 64 := by
    rw [List.length_append]
    omega
  have read := decodeEach_layout each itemsShallow after fun _ => itemsShort
  simp only [empty, Nat.ne_of_gt solid, or_self, ↓reduceIte, Cursor.enter, ge_iff_le,
    Nat.not_le.2 insideBelow, Outcome.ok_bind, Outcome.pure_eq, Cursor.wordsLeft, enough,
    replicate_decode, read]

/-- A value that is not behind an offset is read back when its word is. -/
theorem readBack_of_word {value : Value} {type : AbiType} (body : Word)
    (static : value.isDynamic = false) (encoded : value.encode = body.1)
    (read : ∀ cursor next : Cursor, cursor.word = .ok (body, next) →
      decode type cursor = .ok (value, next)) : ReadBack value type := by
  intro buffer offset more depth _ _
  simp only [Part.head, static, Bool.false_eq_true, ↓reduceIte, encoded]
  exact read _ _ (Cursor.take_append buffer body more depth)

/-- A value behind an offset is read back when its byte string is. -/
theorem readBack_of_content {value : Value} {type : AbiType} (content : Bytes)
    (dynamic : value.isDynamic = true) (encoded : value.encode = encodeBytes content)
    (deep : type.decoderDepth = 1)
    (read : ∀ cursor next : Cursor, cursor.bytes = .ok (content, next) →
      decode type cursor = .ok (value, next)) : ReadBack value type := by
  intro buffer offset more depth shallow stands
  have below : depth < Cursor.maximumDepth := by omega
  simp only [Part.head, dynamic, ↓reduceIte]
  apply read
  exact Cursor.bytes_append (encoded ▸ stands dynamic) below more

/-- A dynamic array is read back when its items are. -/
theorem readBack_array {items : List Value} {element : AbiType} (solid : 0 < element.minimumWords)
    (typed : AllHaveType items element)
    (each : List.Forall₂ ReadBack items (List.replicate items.length element)) :
    ReadBack (.array items) (.array element) := by
  have least := minimumWords_le_of_forall₂ (typed.forall₂_of_element fun _ => minimumWords_le)
  rw [AbiType.sumMinimumWords_replicate] at least
  intro buffer offset more depth shallow stands
  simp only [AbiType.decoderDepth] at shallow
  have read := counted_decode solid each least shallow (stands rfl) more
  simp only [decode, Part.head, isDynamic, ↓reduceIte, read, Outcome.ok_bind, Outcome.pure_eq]

/-- A fixed array is read back when its items are. -/
theorem readBack_fixedArray {items : List Value} {element : AbiType} {length : ArrayLength}
    (count : items.length = length.1) (dynamic : anyDynamic items = element.isDynamic)
    (each : List.Forall₂ ReadBack items (List.replicate items.length element)) :
    ReadBack (.fixedArray items) (.fixedArray element length) := by
  intro buffer offset more depth shallow stands
  have deepest := AbiType.deepest_replicate_le items.length element
  simp only [AbiType.decoderDepth] at shallow
  have itemsShallow : depth + (1 + AbiType.deepest (List.replicate items.length element)) ≤
      Cursor.maximumDepth := by omega
  have read := nested_decodeEach each itemsShallow stands more
  simp only [decode, ← dynamic, replicate_decode, ← count]
  simp only [isDynamic, encode, read, Outcome.ok_bind, Outcome.pure_eq]

/-- A tuple is read back when its members are. -/
theorem readBack_tuple {items : List Value} {members : List AbiType}
    (dynamic : anyDynamic items = AbiType.anyDynamic members)
    (each : List.Forall₂ ReadBack items members) : ReadBack (.tuple items) (.tuple members) := by
  intro buffer offset more depth shallow stands
  have read := nested_decodeEach each shallow stands more
  simp only [decode, ← dynamic]
  simp only [isDynamic, encode, read, Outcome.ok_bind, Outcome.pure_eq]

/-- Every value of a type without empty tuples is read back at that type. -/
theorem readBack {type : AbiType} (solid : type.hasEmptyTuple = false) {value : Value}
    (typed : value.HasType type) : ReadBack value type := by
  induction type generalizing value with
  | bool =>
    cases value with
    | bool value =>
      refine readBack_of_word (SizedBytes.ofNat 32 (if value then 1 else 0)) rfl rfl ?_
      intro cursor next read
      have number : (SizedBytes.ofNat 32 (if value then 1 else 0)).toNat =
          if value then 1 else 0 := by
        rw [SizedBytes.toNat_ofNat]
        exact Nat.mod_eq_of_lt (by split <;> omega)
      simp only [decode, read, Outcome.ok_bind, number, Outcome.pure_eq]
      cases value <;> rfl
    | _ => simp [HasType] at typed
  | uint width =>
    cases value with
    | uint number bits =>
      refine readBack_of_word number.toWord rfl rfl ?_
      intro cursor next read
      simp only [decode, read, Outcome.ok_bind, Outcome.pure_eq, ← typed.1, Uint256.ofWord_toWord]
    | _ => simp [HasType] at typed
  | int width =>
    cases value with
    | int number bits =>
      refine readBack_of_word number.toWord rfl rfl ?_
      intro cursor next read
      simp only [decode, read, Outcome.ok_bind, Outcome.pure_eq, ← typed.1, Int256.ofWord_toWord]
    | _ => simp [HasType] at typed
  | fixedBytes size =>
    cases value with
    | fixedBytes word size =>
      refine readBack_of_word word rfl rfl ?_
      intro cursor next read
      simp only [decode, read, Outcome.ok_bind, Outcome.pure_eq, ← typed.1]
    | _ => simp [HasType] at typed
  | address =>
    cases value with
    | address place =>
      refine readBack_of_word ⟨Bytes.zeros 12 ++ place.bytes.1, by simp⟩ rfl rfl ?_
      intro cursor next read
      have back : (Bytes.zeros 12 ++ place.bytes.1).drop 12 = place.bytes.1 :=
        List.drop_left' (Bytes.length_zeros 12)
      simp only [decode, read, Outcome.ok_bind, Outcome.pure_eq, back]
    | _ => simp [HasType] at typed
  | function =>
    cases value with
    | function pointer =>
      refine readBack_of_word ⟨pointer.1 ++ Bytes.zeros 8, by simp⟩ rfl rfl ?_
      intro cursor next read
      have front : (pointer.1 ++ Bytes.zeros 8).take 24 = pointer.1 := List.take_left' pointer.2
      simp only [decode, read, Outcome.ok_bind, Outcome.pure_eq, front]
    | _ => simp [HasType] at typed
  | bytes =>
    cases value with
    | bytes content =>
      refine readBack_of_content content rfl rfl rfl ?_
      intro cursor next read
      simp only [decode, read, Outcome.ok_bind, Outcome.pure_eq]
    | _ => simp [HasType] at typed
  | string =>
    cases value with
    | string content =>
      refine readBack_of_content (Text.utf8 content) rfl rfl rfl ?_
      intro cursor next read
      simp only [decode, read, Outcome.ok_bind, Outcome.pure_eq, Text.ofUtf8Lossy,
        Text.ofUtf8?_utf8, Option.getD_some]
    | _ => simp [HasType] at typed
  | array element inductionHypothesis =>
    cases value with
    | array items =>
      have itemsTyped : AllHaveType items element := typed
      exact readBack_array (AbiType.minimumWords_pos solid) itemsTyped
        (itemsTyped.forall₂_of_element fun _ => inductionHypothesis solid)
    | _ => simp [HasType] at typed
  | fixedArray element length inductionHypothesis =>
    cases value with
    | fixedArray items =>
      have dynamic : anyDynamic items = element.isDynamic := isDynamic_eq_of_hasType typed
      obtain ⟨count, itemsTyped⟩ := typed
      exact readBack_fixedArray count dynamic
        (itemsTyped.forall₂_of_element fun _ => inductionHypothesis solid)
    | _ => simp [HasType] at typed
  | tuple members inductionHypothesis =>
    cases value with
    | tuple items =>
      have solidMembers := (AbiType.hasEmptyTuple_tuple_eq_false_iff.1 solid).2
      have dynamic : anyDynamic items = AbiType.anyDynamic members :=
        isDynamic_eq_of_hasType typed
      refine readBack_tuple dynamic (HaveTypes.forall₂_of_each typed ?_)
      intro member isMember item
      exact inductionHypothesis member isMember (solidMembers member isMember)
    | _ => simp [HasType] at typed

/-- Reading a sequence gives one value for each type. -/
theorem length_of_decodeEach {types : List AbiType} {values : List Value} {cursor next : Cursor}
    (read : decodeEach types cursor = .ok (values, next)) : values.length = types.length := by
  induction types generalizing values cursor with
  | nil =>
    cases read
    rfl
  | cons type types inductionHypothesis =>
    obtain ⟨⟨first, behind⟩, -, rest⟩ := Outcome.bind_eq_ok.1 read
    obtain ⟨⟨others, last⟩, restRead, result⟩ := Outcome.bind_eq_ok.1 rest
    cases result
    rw [List.length_cons, List.length_cons, inductionHypothesis restRead]

/-- Data holds one value for each type, unless none of the types takes any space. -/
theorem length_of_decodeSequence {room : Nat} {types : List AbiType} {values : List Value}
    {data : Bytes} (sized : AbiType.allZeroSized types = false)
    (decoded : decodeSequence room types data = .ok values) : values.length = types.length := by
  simp only [decodeSequence, sized, Bool.false_eq_true, ↓reduceIte] at decoded
  split at decoded
  · cases decoded
  · split at decoded
    · cases decoded
    · cases read : decodeEach types (Cursor.ofBytes data) with
      | error fault => simp [read, Except.map] at decoded
      | ok result =>
        simp only [read, Except.map, Except.ok.injEq] at decoded
        exact decoded ▸ length_of_decodeEach read

/-- A sequence of values is decoded at their types as long as there is room for the fixed arrays
that the types mention. -/
theorem decodeSequence_encodeSequence (room : Nat) {types : List AbiType}
    (solid : ∀ type ∈ types, type.hasEmptyTuple = false)
    (shallow : ∀ type ∈ types, type.decoderDepth ≤ Cursor.maximumDepth) {values : List Value}
    (typed : HaveTypes values types) (short : (encodeSequence values).length < 1 <<< 64) :
    decodeSequence room types (encodeSequence values) =
      match AbiType.firstRoomFault? room types with
      | some fault => .error fault
      | none => .ok values := by
  have each := typed.forall₂_of_each fun type member _ => readBack (solid type member)
  have least := minimumWords_le_of_forall₂ (typed.forall₂_of_each fun _ _ _ => minimumWords_le)
  have enough : ¬(encodeSequence values).length / 32 < AbiType.sumMinimumWords types := by
    simp only [encodeSequence]
    omega
  have deepest : 0 + AbiType.deepest types ≤ Cursor.maximumDepth := by
    rw [Nat.zero_add, AbiType.deepest_le_iff]
    exact shallow
  have read := decodeEach_layout each deepest [] fun _ => by
    rwa [List.append_nil]
  rw [List.append_nil, List.append_nil] at read
  cases types with
  | nil =>
    cases each
    rfl
  | cons first others =>
    have sized := AbiType.isZeroSized_eq_false (solid first List.mem_cons_self)
    simp only [decodeSequence, AbiType.allZeroSized, sized, Bool.false_and, Bool.false_eq_true,
      ↓reduceIte, enough, Cursor.ofBytes]
    rw [encodeSequence, read]
    rfl

end Value

end ContractAbi
