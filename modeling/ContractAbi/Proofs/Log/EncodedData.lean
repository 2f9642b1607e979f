import ContractAbi.Proofs.Log.DataFilter

/-!
# Filters over encoded data

Data that was encoded from arguments holds the values that these stand for, and normalization leaves
those as they are. So a filter compares what the arguments and its accepted values stand for,
however they were spelled (`DataFilter.passes_encoded`).
-/

namespace ContractAbi.DataFilter

variable {codec : Codec}

/-- Every restricted entry has an accepted value that stands for the same as the argument at its
place. -/
def Admits (filter : DataFilter) (codec : Codec) (arguments : List Argument) : Prop :=
  List.Forall₂ (fun entry argument => ∀ accepted, entry.accepted = some accepted →
    ∃ candidate ∈ accepted,
      codec.coerce entry.type candidate = codec.coerce entry.type argument)
    filter.entries arguments

/-- Arguments are admitted when every entry allows the value that its argument stands for. -/
theorem admits_iff_allows {filter : DataFilter} {arguments : List Argument} {values : List Value}
    (counted : filter.types.length = arguments.length)
    (coerced : List.zipWith codec.coerce filter.types arguments = values.map some)
    (normal : ∀ entry ∈ filter.types.zip values, Value.normalizeText entry.1 entry.2 = entry.2) :
    filter.Admits codec arguments ↔
      ∀ pair ∈ filter.entries.zip values, pair.1.Allows codec pair.2 := by
  obtain ⟨entries⟩ := filter
  simp only [types, Admits] at *
  induction entries generalizing arguments values with
  | nil =>
    obtain rfl := List.length_eq_zero_iff.1 counted.symm
    simp
  | cons entry entries inductionHypothesis =>
    cases arguments with
    | nil => simp at counted
    | cons argument arguments =>
      cases values with
      | nil => simp at coerced
      | cons value values =>
        obtain ⟨first, others⟩ := List.cons.inj coerced
        obtain ⟨firstNormal, othersNormal⟩ := List.forall_mem_cons.1 normal
        rw [List.forall₂_cons, List.zip_cons_cons, List.forall_mem_cons,
          inductionHypothesis (Nat.succ.inj counted) others othersNormal, FilterEntry.Allows,
          firstNormal, first]

/-- On encoded arguments a filter decides by what they stand for. Its types free of empty tuples and
no deeper than a decoder goes, its accepted values all of their types, and the data short enough for
its offsets, there is a verdict: the data passes exactly when each restricted entry accepts a value
that stands for the same as the argument at its place, and normalization changes nothing on the way.
A restricted filter needs room for the fixed arrays that its types mention; on a host without, it
fails with the first of these arrays, from the inside out, for which there is none. -/
theorem passes_encoded {strict : Bool} {room : Nat} {filter : DataFilter}
    {arguments : List Argument} {data : Bytes}
    (encoded : (Codec.standard strict room).encode filter.types arguments = .ok data)
    (solid : ∀ text ∈ filter.types, ∀ type, AbiType.parse text = .ok type →
      type.hasEmptyTuple = false)
    (shallow : ∀ text ∈ filter.types, ∀ type, AbiType.parse text = .ok type →
      type.decoderDepth ≤ 16)
    (short : data.length < 1 <<< 64)
    (able : ∀ entry ∈ filter.entries, ∀ accepted, entry.accepted = some accepted →
      ∀ candidate ∈ accepted,
        ((Codec.standard strict room).coerce entry.type candidate).isSome = true) :
    ∃ parsed values, parseTypes filter.types = .ok parsed ∧
      List.zipWith (Codec.standard strict room).coerce filter.types arguments = values.map some ∧
      values.length = filter.types.length ∧
      (∀ entry ∈ filter.types.zip values, Value.normalizeText entry.1 entry.2 = entry.2) ∧
      (AbiType.HaveRoom room parsed →
        (Codec.standard strict room).decode filter.types data = .ok values) ∧
      (filter.isEmpty = true ∨ AbiType.HaveRoom room parsed →
        ∃ verdict, (filter.passes (Codec.standard strict room) data).result = .ok verdict ∧
          (verdict = true ↔ filter.Admits (Codec.standard strict room) arguments)) ∧
      (filter.isEmpty = false → ¬AbiType.HaveRoom room parsed →
        ∃ length, AbiType.FirstRoomless room parsed length ∧
          (filter.passes (Codec.standard strict room) data).result =
            .error (.encoding (.undecodable (AbiType.roomlessFault length)))) := by
  obtain ⟨counted, values, coerced, rfl⟩ := encodeArguments_eq_ok_iff.1 encoded
  obtain ⟨parsed, parses, typed⟩ := Argument.exists_haveTypes_of_coerced counted coerced
  have solidTypes : ∀ type ∈ parsed, type.hasEmptyTuple = false :=
    forall_mem_of_parseTypes parses solid
  have shallowTypes : ∀ type ∈ parsed, type.decoderDepth ≤ Cursor.maximumDepth :=
    forall_mem_of_parseTypes parses shallow
  obtain ⟨decodes, stops⟩ :=
    decodeData_encodeSequence room parses solidTypes shallowTypes typed short
  have normal := Value.normalizeText_of_coerced coerced
  have admits : filter.Admits (.standard strict room) arguments ↔ _ :=
    admits_iff_allows counted coerced normal
  refine ⟨parsed, values, parses, coerced, length_of_coerced counted coerced, normal, decodes,
    ?_, ?_⟩
  · intro decidable
    rw [admits]
    cases empty : filter.isEmpty with
    | true =>
      refine ⟨true, by simp [passes, empty], iff_of_true rfl ?_⟩
      intro pair member
      exact allows_of_isEmpty _ empty (List.of_mem_zip member).1 pair.2
    | false =>
      have roomy : AbiType.HaveRoom room parsed := by simpa [empty] using decidable
      have decoded : (Codec.standard strict room).decode filter.types _ = _ := decodes roomy
      rw [result_passes empty, decoded]
      exact acceptsEach_of_coerced able values
  · intro restricted roomless
    obtain ⟨length, first, failed⟩ := stops roomless
    have undecoded : (Codec.standard strict room).decode filter.types _ = _ := failed
    refine ⟨length, first, ?_⟩
    rw [result_passes restricted, undecoded]

/-- Padded bytes in an array are recognised by their digits when there are just the eighty bytes of
room for the two items, and nothing is with one byte less. -/
theorem passes_encoded_of_digits :
    let filter : DataFilter :=
      ⟨[⟨"bytes2[2]", some [.list [.text "0x02", .bytes []], .list [.text "0x01", .bytes []]]⟩]⟩
    let arguments : List Argument := [.list [.bytes [1], .text "0x"]]
    ∃ data, (Codec.standard false 80).encode filter.types arguments = .ok data ∧
      (filter.passes (Codec.standard false 80) data).result = .ok true ∧
      (filter.passes (Codec.standard false 79) data).result =
        .error (.encoding (.undecodable .noRoom)) := by
  intro filter arguments
  let two : ArrayLength := ⟨2, by decide⟩
  let type : AbiType := .fixedArray (.fixedBytes ⟨2, by decide⟩) two
  let value (byte : UInt8) : Value :=
    .fixedArray [.fixedBytes (SizedBytes.padRight 32 [byte]) 2,
      .fixedBytes (SizedBytes.padRight 32 []) 2]
  have parsed : AbiType.parse "bytes2[2]" = .ok type := by cbv
  have taken (argument : Argument) (value : Value)
      (coerced : Argument.coerce false type argument = some value) :
      Argument.coerceText false "bytes2[2]" argument = some value :=
    Argument.coerceText_eq_some_iff.2 ⟨type, parsed, coerced⟩
  have bytes : Argument.coerceText false "bytes2[2]" (.list [.bytes [1], .text "0x"]) =
      some (value 1) := taken _ _ (by cbv)
  have digits : Argument.coerceText false "bytes2[2]" (.list [.text "0x01", .bytes []]) =
      some (value 1) := taken _ _ (by cbv)
  have otherDigits : Argument.coerceText false "bytes2[2]" (.list [.text "0x02", .bytes []]) =
      some (value 2) := taken _ _ (by cbv)
  have encoded (room : Nat) : (Codec.standard false room).encode filter.types arguments =
      .ok (Value.encodeSequence [value 1]) := by
    change encodeArguments (Argument.coerceText false) filter.types arguments = _
    rw [encodeArguments_eq_ok_iff]
    exact ⟨rfl, [value 1], by simp [filter, types, arguments, bytes], rfl⟩
  have only := forall_parsed_of_parse parsed
  have short : (Value.encodeSequence [value 1]).length < 1 <<< 64 := by decide +kernel
  have able (room : Nat) : ∀ entry ∈ filter.entries, ∀ accepted, entry.accepted = some accepted →
      ∀ candidate ∈ accepted,
        ((Codec.standard false room).coerce entry.type candidate).isSome = true := by
    simp [filter, digits, otherDigits]
  have decides (room : Nat) := passes_encoded (encoded room) (only _ rfl)
    (only (AbiType.decoderDepth · ≤ 16) (by decide)) short (able room)
  have known : parseTypes filter.types = .ok [type] := by
    simp [parseTypes, filter, types, parsed]
  have admitted : filter.Admits (.standard false 80) arguments := by
    refine .cons ?_ .nil
    intro accepted restricted
    obtain rfl := Option.some.inj restricted
    exact ⟨.list [.text "0x01", .bytes []], by simp, digits.trans bytes.symm⟩
  refine ⟨_, encoded 80, ?_, ?_⟩
  · obtain ⟨_, _, parses, -, -, -, -, decided, -⟩ := decides 80
    obtain rfl := Except.ok.inj (known.symm.trans parses)
    obtain ⟨verdict, isVerdict, meaning⟩ := decided (.inr (by decide))
    rw [isVerdict, meaning.2 admitted]
  · obtain ⟨_, _, parses, -, -, -, -, -, stops⟩ := decides 79
    obtain rfl := Except.ok.inj (known.symm.trans parses)
    obtain ⟨length, first, stopped⟩ := stops rfl (by decide)
    obtain rfl : length = two := List.mem_singleton.1 first.mem
    exact stopped

/-- Room is needed even for a fixed array that the data never gets to: a filter that accepts just
the empty list of very long arrays, which is what the data holds, can decide about it on no host,
and one for arrays of a little more than thirty-two gigabytes not on a host with so much. -/
theorem passes_roomless :
    let longest : ArrayLength := ⟨18446744073709551615, by decide⟩
    let longer : ArrayLength := ⟨858993460, by decide⟩
    let uint8 : AbiType := .uint ⟨8, by decide⟩
    let items (length : ArrayLength) : AbiType := .array (.fixedArray uint8 length)
    let filter (text : String) : DataFilter := ⟨[⟨text, some [.list []]⟩]⟩
    let data := Bytes.ofNat 32 32 ++ Bytes.ofNat 32 0
    AbiType.parse "uint8[18446744073709551615][]" = .ok (items longest) ∧
      AbiType.parse "uint8[858993460][]" = .ok (items longer) ∧
      (∀ length, (items length).hasEmptyTuple = false ∧ (items length).decoderDepth ≤ 16) ∧
      data.length < 1 <<< 64 ∧
      (∀ room, let codec := Codec.standard true room
        let filter := filter "uint8[18446744073709551615][]"
        codec.encode filter.types [.list []] = .ok data ∧
        codec.coerce "uint8[18446744073709551615][]" (.list []) = some (.array []) ∧
        filter.Admits codec [.list []] ∧
        (filter.passes codec data).result = .error (.encoding (.undecodable .uncountable))) ∧
      let codec := Codec.standard true (1 <<< 35)
      let filter := filter "uint8[858993460][]"
      codec.encode filter.types [.list []] = .ok data ∧
        codec.coerce "uint8[858993460][]" (.list []) = some (.array []) ∧
        filter.Admits codec [.list []] ∧
        (filter.passes codec data).result = .error (.encoding (.undecodable .noRoom)) := by
  intro longest longer uint8 items filter data
  have parsedLongest : AbiType.parse "uint8[18446744073709551615][]" = .ok (items longest) := by
    cbv
  have parsedLonger : AbiType.parse "uint8[858993460][]" = .ok (items longer) := by cbv
  have short : data.length < 1 <<< 64 := by simp [data]
  have coerced {text : String} {length : ArrayLength}
      (parsed : AbiType.parse text = .ok (items length)) :
      Argument.coerceText true text (.list []) = some (.array []) :=
    Argument.coerceText_eq_some_iff.2 ⟨items length, parsed, rfl⟩
  have encoded {text : String} {length : ArrayLength}
      (parsed : AbiType.parse text = .ok (items length)) :
      encodeArguments (Argument.coerceText true) (filter text).types [.list []] = .ok data := by
    rw [encodeArguments_eq_ok_iff]
    exact ⟨rfl, [.array []], by simp [filter, types, coerced parsed], by decide⟩
  have admitted (text : String) (room : Nat) :
      (filter text).Admits (.standard true room) [.list []] := by
    refine .cons ?_ .nil
    intro accepted restricted
    obtain rfl := Option.some.inj restricted
    exact ⟨.list [], List.mem_singleton_self _, rfl⟩
  have fails {text : String} {length : ArrayLength} {room : Nat}
      (parsed : AbiType.parse text = .ok (items length))
      (roomless : ¬AbiType.HasRoom room length) :
      ((filter text).passes (.standard true room) data).result =
        .error (.encoding (.undecodable (AbiType.roomlessFault length))) := by
    have undecoded : (Codec.standard true room).decode (filter text).types data = _ :=
      Codec.decode_of_roomless_items parsed rfl (AbiType.haveRoom_iff.2 (List.forall_mem_nil _))
        roomless
    rw [result_passes rfl, undecoded]
  refine ⟨parsedLongest, parsedLonger, fun _ => ⟨rfl, Nat.le_of_ble_eq_true rfl⟩, short, ?_, ?_⟩
  · intro room codec longestFilter
    exact ⟨encoded parsedLongest, coerced parsedLongest, admitted _ room,
      fails parsedLongest fun enough => absurd enough.1 (by decide)⟩
  · intro codec longerFilter
    exact ⟨encoded parsedLonger, coerced parsedLonger, admitted _ _,
      fails parsedLonger (by decide)⟩

end ContractAbi.DataFilter
