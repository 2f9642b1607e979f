import ContractAbi.Call.Codec
import ContractAbi.Proofs.AbiType.Grammar
import ContractAbi.Proofs.Argument.Coercion
import ContractAbi.Proofs.Value.Room
import ContractAbi.Proofs.Value.RoundTrip
import Mathlib

/-!
# The codec of the standard types

Arguments are encoded when each of them can be coerced, and what is encoded is the sequence of the
coerced values. `Codec.decode_encode` says that these values are decoded again on every host with
room for the fixed arrays of the types, and what happens on the others.
-/

namespace ContractAbi

open Argument (coerceText)

/-- Arguments are coerced when each of them is. -/
theorem coerceArguments_eq_ok_iff {coerce : String → Argument → Option Value} {types : List String}
    {arguments : List Argument} {values : List Value} :
    coerceArguments coerce types arguments = .ok values ↔
      List.zipWith coerce types arguments = values.map some := by
  induction types generalizing arguments values with
  | nil => cases values <;> simp [coerceArguments]
  | cons type types inductionHypothesis =>
    cases arguments with
    | nil => cases values <;> simp [coerceArguments]
    | cons argument arguments =>
      cases coerced : coerce type argument with
      | none => cases values <;> simp [coerceArguments, coerced]
      | some value =>
        simp only [coerceArguments, coerced, Outcome.map_eq_ok, inductionHypothesis,
          List.zipWith_cons_cons]
        cases values with
        | nil => simp
        | cons first others => grind

/-- Coercion of several arguments fails with the first one that is not coerced. -/
theorem coerceArguments_eq_error_iff {coerce : String → Argument → Option Value}
    {types : List String} {arguments : List Argument} {error : EncodingError} :
    coerceArguments coerce types arguments = .error error ↔
      ∃ before type argument after, types.zip arguments = before ++ (type, argument) :: after ∧
        (∀ entry ∈ before, (coerce entry.1 entry.2).isSome = true) ∧
        coerce type argument = none ∧ error = .valueMismatch type argument.readableType := by
  induction types generalizing arguments with
  | nil => simp [coerceArguments]
  | cons type types inductionHypothesis =>
    cases arguments with
    | nil => simp [coerceArguments]
    | cons argument arguments =>
      rw [coerceArguments, List.zip_cons_cons]
      cases coerced : coerce type argument with
      | none =>
        constructor
        · rintro ⟨⟩
          exact ⟨[], type, argument, _, rfl, by simp, coerced, rfl⟩
        · rintro ⟨before, _, _, _, split, fine, failed, rfl⟩
          cases before with
          | nil =>
            obtain ⟨⟨⟩, -⟩ := List.cons.inj split
            rfl
          | cons first before =>
            obtain ⟨rfl, -⟩ := List.cons.inj split
            simp [coerced] at fine
      | some value =>
        rw [Outcome.map_eq_error, inductionHypothesis]
        constructor
        · rintro ⟨before, misfit, other, after, split, fine, failed, rfl⟩
          exact ⟨(type, argument) :: before, misfit, other, after, by simp [split],
            List.forall_mem_cons.2 ⟨by simp [coerced], fine⟩, failed, rfl⟩
        · rintro ⟨before, misfit, other, after, split, fine, failed, rfl⟩
          cases before with
          | nil =>
            obtain ⟨⟨⟩, -⟩ := List.cons.inj split
            simp [coerced] at failed
          | cons first before =>
            obtain ⟨rfl, rest⟩ := List.cons.inj split
            exact ⟨before, misfit, other, after, rest, (List.forall_mem_cons.1 fine).2, failed,
              rfl⟩

/-- When each argument can be coerced at its type, there are values for all of them. -/
theorem exists_coerced {coerce : String → Argument → Option Value} {types : List String}
    {arguments : List Argument}
    (able : ∀ entry ∈ types.zip arguments, (coerce entry.1 entry.2).isSome = true) :
    ∃ values : List Value, List.zipWith coerce types arguments = values.map some := by
  induction types generalizing arguments with
  | nil => exact ⟨[], rfl⟩
  | cons type types inductionHypothesis =>
    cases arguments with
    | nil => exact ⟨[], rfl⟩
    | cons argument arguments =>
      obtain ⟨first, others⟩ := List.forall_mem_cons.1 able
      obtain ⟨value, coerced⟩ := Option.isSome_iff_exists.1 first
      obtain ⟨values, rest⟩ := inductionHypothesis others
      exact ⟨value :: values, by simp [coerced, rest]⟩

theorem isSome_of_coerced {coerce : String → Argument → Option Value} {types : List String}
    {arguments : List Argument} {values : List Value}
    (coerced : List.zipWith coerce types arguments = values.map some) :
    ∀ entry ∈ types.zip arguments, (coerce entry.1 entry.2).isSome = true := by
  intro entry member
  have among : coerce entry.1 entry.2 ∈ values.map some := by
    rw [← coerced, ← List.map_uncurry_zip_eq_zipWith]
    exact List.mem_map_of_mem member
  obtain ⟨value, -, same⟩ := List.mem_map.1 among
  rw [← same, Option.isSome_some]

theorem length_of_coerced {coerce : String → Argument → Option Value} {types : List String}
    {arguments : List Argument} {values : List Value} (counted : types.length = arguments.length)
    (coerced : List.zipWith coerce types arguments = values.map some) :
    values.length = types.length := by
  have lengths := congrArg List.length coerced
  simp only [List.length_zipWith, List.length_map] at lengths
  omega

/-- Arguments are encoded as the sequence of the values that they are coerced to. -/
theorem encodeArguments_eq_ok_iff {coerce : String → Argument → Option Value}
    {types : List String} {arguments : List Argument} {data : Bytes} :
    encodeArguments coerce types arguments = .ok data ↔
      types.length = arguments.length ∧ ∃ values,
        List.zipWith coerce types arguments = values.map some ∧
        Value.encodeSequence values = data := by
  unfold encodeArguments
  split
  · next miscounted => simp [miscounted]
  · next counted =>
    simp only [Outcome.map_eq_ok, coerceArguments_eq_ok_iff, Decidable.not_not.1 counted, true_and]

/-- Texts stand for types when each of them stands for one. -/
theorem parseTypes_eq_ok_iff {texts : List String} {types : List AbiType} :
    parseTypes texts = .ok types ↔ texts.map AbiType.parse = types.map .ok := by
  induction texts generalizing types with
  | nil => simp [parseTypes, eq_comm]
  | cons text texts inductionHypothesis =>
    rw [parseTypes]
    cases parsed : AbiType.parse text with
    | error fault => cases types <;> simp [parsed]
    | ok type =>
      simp only [Outcome.map_eq_ok, inductionHypothesis, List.map_cons, parsed]
      cases types with
      | nil => simp
      | cons first others => grind

/-- What holds of the types that the texts stand for holds of the types they are parsed to. -/
theorem forall_mem_of_parseTypes {property : AbiType → Prop} {texts : List String}
    {types : List AbiType} (parses : parseTypes texts = .ok types)
    (each : ∀ text ∈ texts, ∀ type, AbiType.parse text = .ok type → property type) :
    ∀ type ∈ types, property type := by
  intro type member
  have isParse : .ok type ∈ texts.map AbiType.parse := by
    rw [parseTypes_eq_ok_iff.1 parses]
    exact List.mem_map_of_mem member
  obtain ⟨text, isText, parsed⟩ := List.mem_map.1 isParse
  exact each text isText type parsed

/-- What holds of the type that a text stands for holds of all types of the text alone. -/
theorem forall_parsed_of_parse {text : String} {type : AbiType}
    (parsed : AbiType.parse text = .ok type) (property : AbiType → Prop) (holds : property type) :
    ∀ other ∈ [text], ∀ found, AbiType.parse other = .ok found → property found := by
  intro other member found parse
  rw [List.mem_singleton.1 member, parsed] at parse
  exact Except.ok.inj parse ▸ holds

/-- Data holds one value for each text, unless none of the types takes any space. -/
theorem length_of_decodeData {room : Nat} {texts : List String} {types : List AbiType}
    {data : Bytes} {values : List Value} (parses : parseTypes texts = .ok types)
    (sized : AbiType.allZeroSized types = false)
    (decoded : decodeData room texts data = .ok values) : values.length = texts.length := by
  have counted := congrArg List.length (parseTypes_eq_ok_iff.1 parses)
  simp only [List.length_map] at counted
  rw [decodeData, parses] at decoded
  cases read : Value.decodeSequence room types data with
  | error fault => simp [read, Except.mapError] at decoded
  | ok results =>
    simp only [read, Except.mapError, Except.ok.injEq] at decoded
    rw [counted, ← decoded, Value.length_of_decodeSequence sized read]

/-- Encoded values are decoded again at texts for their types on a host with room for every fixed
array that the types mention, and on no other. -/
theorem decodeData_encodeSequence (room : Nat) {texts : List String} {types : List AbiType}
    (parses : parseTypes texts = .ok types)
    (solid : ∀ type ∈ types, type.hasEmptyTuple = false)
    (shallow : ∀ type ∈ types, type.decoderDepth ≤ Cursor.maximumDepth) {values : List Value}
    (typed : Value.HaveTypes values types)
    (short : (Value.encodeSequence values).length < 1 <<< 64) :
    (AbiType.HaveRoom room types →
      decodeData room texts (Value.encodeSequence values) = .ok values) ∧
    (¬AbiType.HaveRoom room types → ∃ length, AbiType.FirstRoomless room types length ∧
      decodeData room texts (Value.encodeSequence values) =
        .error (.undecodable (AbiType.roomlessFault length))) := by
  have read := Value.decodeSequence_encodeSequence room solid shallow typed short
  simp only [decodeData, parses, read]
  constructor
  · intro roomy
    rw [AbiType.firstRoomFault?_eq_none_iff.2 roomy]
    rfl
  · intro roomless
    obtain ⟨length, first, isFault⟩ := AbiType.exists_firstRoomless roomless
    rw [isFault]
    exact ⟨length, first, rfl⟩

namespace Argument

/-- Coercion at a text is coercion at the type that the text stands for. -/
theorem coerceText_eq_some_iff {strict : Bool} {text : String} {argument : Argument}
    {value : Value} :
    coerceText strict text argument = some value ↔
      ∃ type, AbiType.parse text = .ok type ∧ coerce strict type argument = some value := by
  simp only [coerceText, Option.bind_eq_some_iff, AbiType.parse?_eq_some_iff]

/-- Values that arguments were coerced to have the types that the texts stand for. -/
theorem exists_haveTypes_of_coerced {strict : Bool} {texts : List String}
    {arguments : List Argument} {values : List Value} (counted : texts.length = arguments.length)
    (coerced : List.zipWith (coerceText strict) texts arguments = values.map some) :
    ∃ types, parseTypes texts = .ok types ∧ Value.HaveTypes values types := by
  induction texts generalizing arguments values with
  | nil =>
    obtain rfl : values = [] := List.map_eq_nil_iff.1 coerced.symm
    exact ⟨[], rfl, trivial⟩
  | cons text texts inductionHypothesis =>
    cases arguments with
    | nil => simp at counted
    | cons argument arguments =>
      cases values with
      | nil => simp at coerced
      | cons value values =>
        obtain ⟨first, others⟩ := List.cons.inj coerced
        obtain ⟨type, parsed, typed⟩ := coerceText_eq_some_iff.1 first
        obtain ⟨types, parsedOthers, othersTyped⟩ :=
          inductionHypothesis (Nat.succ.inj counted) others
        exact ⟨type :: types, by simp [parseTypes, parsed, parsedOthers],
          hasType_of_coerce typed, othersTyped⟩

end Argument

namespace Codec

/-- What was encoded is decoded again: when no type holds an empty tuple or goes deeper than a
decoder does, and the data is short enough for its offsets, then the data is decoded to what the
arguments are coerced to, on every host with room for the fixed arrays that the types mention. On
any other host the decoder stops at the first of these arrays without room, from the inside out. -/
theorem decode_encode {strict : Bool} {room : Nat} {types : List String}
    {arguments : List Argument} {data : Bytes}
    (encoded : (Codec.standard strict room).encode types arguments = .ok data)
    (solid : ∀ text ∈ types, ∀ type, AbiType.parse text = .ok type → type.hasEmptyTuple = false)
    (shallow : ∀ text ∈ types, ∀ type, AbiType.parse text = .ok type → type.decoderDepth ≤ 16)
    (short : data.length < 1 <<< 64) :
    ∃ parsed values, parseTypes types = .ok parsed ∧
      types.length = arguments.length ∧ values.length = types.length ∧
      List.zipWith (Codec.standard strict room).coerce types arguments = values.map some ∧
      (AbiType.HaveRoom room parsed →
        (Codec.standard strict room).decode types data = .ok values) ∧
      (¬AbiType.HaveRoom room parsed → ∃ length, AbiType.FirstRoomless room parsed length ∧
        (Codec.standard strict room).decode types data =
          .error (.undecodable (AbiType.roomlessFault length))) := by
  obtain ⟨counted, values, coerced, rfl⟩ := encodeArguments_eq_ok_iff.1 encoded
  obtain ⟨parsed, parses, typed⟩ := Argument.exists_haveTypes_of_coerced counted coerced
  have solidTypes : ∀ type ∈ parsed, type.hasEmptyTuple = false :=
    forall_mem_of_parseTypes parses solid
  have shallowTypes : ∀ type ∈ parsed, type.decoderDepth ≤ Cursor.maximumDepth :=
    forall_mem_of_parseTypes parses shallow
  exact ⟨parsed, values, parses, counted, length_of_coerced counted coerced, coerced,
    decodeData_encodeSequence room parses solidTypes shallowTypes typed short⟩

/-- Two tuples with a byte string in them are decoded again when there are just the eighty bytes of
room for the two, and not with one byte less. -/
theorem decode_encode_of_tuples :
    let types := ["(bool,bytes)[2]"]
    let arguments : List Argument :=
      [.list [.list [.bool true, .bytes [1, 2]], .list [.bool false, .bytes []]]]
    ∃ data, (Codec.standard true 80).encode types arguments = .ok data ∧
      (Codec.standard true 80).decode types data =
        .ok [.fixedArray [.tuple [.bool true, .bytes [1, 2]], .tuple [.bool false, .bytes []]]] ∧
      (Codec.standard true 79).decode types data = .error (.undecodable .noRoom) := by
  intro types arguments
  let two : ArrayLength := ⟨2, by decide⟩
  let type : AbiType := .fixedArray (.tuple [.bool, .bytes]) two
  let value : Value :=
    .fixedArray [.tuple [.bool true, .bytes [1, 2]], .tuple [.bool false, .bytes []]]
  have parsed : AbiType.parse "(bool,bytes)[2]" = .ok type := by cbv
  have taken : coerceText true "(bool,bytes)[2]"
      (.list [.list [.bool true, .bytes [1, 2]], .list [.bool false, .bytes []]]) =
        some value := by
    rw [Argument.coerceText_eq_some_iff]
    exact ⟨type, parsed, rfl⟩
  have coerced : List.zipWith (coerceText true) types arguments = [value].map some := by
    simp [types, arguments, taken]
  have encoded (room : Nat) : (Codec.standard true room).encode types arguments =
      .ok (Value.encodeSequence [value]) := by
    change encodeArguments (coerceText true) types arguments = _
    rw [encodeArguments_eq_ok_iff]
    exact ⟨rfl, [value], coerced, rfl⟩
  have only := forall_parsed_of_parse parsed
  have short : (Value.encodeSequence [value]).length < 1 <<< 64 := by decide +kernel
  have decodes (room : Nat) := decode_encode (encoded room) (only _ rfl)
    (only (AbiType.decoderDepth · ≤ 16) (by decide)) short
  have known : parseTypes types = .ok [type] := by simp [parseTypes, types, parsed]
  refine ⟨_, encoded 80, ?_, ?_⟩
  · obtain ⟨_, values, parses, -, -, sameValues, decoded, -⟩ := decodes 80
    obtain rfl := Except.ok.inj (known.symm.trans parses)
    have same : values = [value] := by
      change List.zipWith (coerceText true) types arguments = _ at sameValues
      rw [coerced] at sameValues
      exact ((List.map_inj_right fun _ _ => Option.some.inj).1 sameValues).symm
    rw [decoded (by decide), same]
  · obtain ⟨_, _, parses, -, -, -, -, stops⟩ := decodes 79
    obtain rfl := Except.ok.inj (known.symm.trans parses)
    obtain ⟨length, first, stopped⟩ := stops (by decide)
    obtain rfl : length = two := List.mem_singleton.1 first.mem
    exact stopped

/-- Data that holds an empty list of fixed arrays without room for one of them is not decoded. -/
theorem decode_of_roomless_items {strict : Bool} {room : Nat} {text : String} {element : AbiType}
    {length : ArrayLength} (parsed : AbiType.parse text = .ok (.array (.fixedArray element length)))
    (sized : element.isZeroSized = false) (roomy : AbiType.HaveRoom room [element])
    (roomless : ¬AbiType.HasRoom room length) :
    (Codec.standard strict room).decode [text] (Bytes.ofNat 32 32 ++ Bytes.ofNat 32 0) =
      .error (.undecodable (AbiType.roomlessFault length)) := by
  have isFault : AbiType.firstRoomFault? room [.array (.fixedArray element length)] =
      some (AbiType.roomlessFault length) := by
    refine AbiType.firstRoomFault?_eq_some_iff.2 ⟨length, ?_, rfl⟩
    refine ⟨element.fixedLengths, [], by simp [AbiType.allFixedLengths, AbiType.fixedLengths], ?_,
      roomless⟩
    simpa [AbiType.haveRoom_iff, AbiType.allFixedLengths] using roomy
  have enough : ¬(Bytes.ofNat 32 32 ++ Bytes.ofNat 32 0).length / 32 <
      AbiType.sumMinimumWords [.array (.fixedArray element length)] := by
    simp [AbiType.sumMinimumWords, AbiType.minimumWords]
  simp only [standard, decodeData, parseTypes, parsed, Value.decodeSequence, AbiType.allZeroSized,
    AbiType.isZeroSized, sized, Bool.false_and, enough, isFault, Bool.false_eq_true, ↓reduceIte,
    Outcome.map_ok, Except.mapError]

/-- Room is needed even for a fixed array that the data never gets to: an empty list of very long
arrays is encoded but not decoded. No host can count the bytes for the longest arrays, and a host
with thirty-two gigabytes has no room for an array of so many and one item. -/
theorem decode_ne_encoded_of_roomless :
    let longest : ArrayLength := ⟨18446744073709551615, by decide⟩
    let longer : ArrayLength := ⟨858993460, by decide⟩
    let uint8 : AbiType := .uint ⟨8, by decide⟩
    let items (length : ArrayLength) : AbiType := .array (.fixedArray uint8 length)
    let data := Bytes.ofNat 32 32 ++ Bytes.ofNat 32 0
    AbiType.parse "uint8[18446744073709551615][]" = .ok (items longest) ∧
      AbiType.parse "uint8[858993460][]" = .ok (items longer) ∧
      (∀ length, (items length).hasEmptyTuple = false ∧ (items length).decoderDepth ≤ 16) ∧
      data.length < 1 <<< 64 ∧
      (∀ room, let codec := Codec.standard true room
        codec.coerce "uint8[18446744073709551615][]" (.list []) = some (.array []) ∧
        codec.encode ["uint8[18446744073709551615][]"] [.list []] = .ok data ∧
        codec.decode ["uint8[18446744073709551615][]"] data =
          .error (.undecodable .uncountable)) ∧
      let codec := Codec.standard true (1 <<< 35)
      codec.coerce "uint8[858993460][]" (.list []) = some (.array []) ∧
      codec.encode ["uint8[858993460][]"] [.list []] = .ok data ∧
      codec.decode ["uint8[858993460][]"] data = .error (.undecodable .noRoom) := by
  intro longest longer uint8 items data
  have parsedLongest : AbiType.parse "uint8[18446744073709551615][]" = .ok (items longest) := by
    cbv
  have parsedLonger : AbiType.parse "uint8[858993460][]" = .ok (items longer) := by cbv
  have short : data.length < 1 <<< 64 := by simp [data]
  have coerced {text : String} {length : ArrayLength}
      (parsed : AbiType.parse text = .ok (items length)) :
      coerceText true text (.list []) = some (.array []) :=
    Argument.coerceText_eq_some_iff.2 ⟨items length, parsed, rfl⟩
  have encoded {text : String} {length : ArrayLength}
      (parsed : AbiType.parse text = .ok (items length)) :
      encodeArguments (coerceText true) [text] [.list []] = .ok data := by
    rw [encodeArguments_eq_ok_iff]
    exact ⟨rfl, [.array []], by simp [coerced parsed], by decide⟩
  have roomy (room : Nat) : AbiType.HaveRoom room [uint8] :=
    AbiType.haveRoom_iff.2 (List.forall_mem_nil _)
  refine ⟨parsedLongest, parsedLonger, fun _ => ⟨rfl, Nat.le_of_ble_eq_true rfl⟩, short, ?_, ?_⟩
  · intro room codec
    refine ⟨coerced parsedLongest, encoded parsedLongest, ?_⟩
    exact decode_of_roomless_items parsedLongest rfl (roomy room) fun enough =>
      absurd enough.1 (by decide)
  · refine ⟨coerced parsedLonger, encoded parsedLonger, ?_⟩
    exact decode_of_roomless_items parsedLonger rfl (roomy _) (by decide)

end Codec

end ContractAbi
