import ContractAbi.Proofs.AbiType.Grammar
import ContractAbi.Proofs.Argument.Number
import ContractAbi.Proofs.Argument.Steps

/-!
# What coerced values are made of

A value of a type is made of an argument when it stands for the argument at every depth. The values
that an argument is coerced to are those that have the type and are made of the argument, and no
step on the way breaks down (`Argument.coerceText_eq_some_iff_madeOf`).
-/

namespace ContractAbi

/-- A value is made of an argument. -/
inductive Value.MadeOf (strict : Bool) : Value → Argument → Prop where
  | bool (value : Bool) : MadeOf strict (.bool value) (.bool value)
  | uint {number : Uint256} {argument : Argument} (bits : Nat)
    (supplied : argument.number? = some (number.toNat : Int)) :
    MadeOf strict (.uint number bits) argument
  | int {number : Int256} {argument : Argument} (bits : Nat)
    (supplied : argument.number? = some number.toInt) :
    MadeOf strict (.int number bits) argument
  /-- The word is the supplied bytes with zeros behind. -/
  | fixedBytes {word : Word} {size : Nat} {content : Bytes} {argument : Argument}
    (supplied : argument.bytes? = some content)
    (padded : word.1 = content ++ Bytes.zeros (32 - content.length))
    (inside : content.length ≤ size) (whole : strict = true → content.length = size) :
    MadeOf strict (.fixedBytes word size) argument
  | address {place : Address} {argument : Argument} (supplied : argument.address? = some place) :
    MadeOf strict (.address place) argument
  | function (pointer : SizedBytes 24) : MadeOf strict (.function pointer) (.bytes pointer.1)
  | bytes {content : Bytes} {argument : Argument} (supplied : argument.bytes? = some content) :
    MadeOf strict (.bytes content) argument
  | string (content : String) : MadeOf strict (.string content) (.text content)
  | array {values : List Value} {items : List Argument}
    (each : List.Forall₂ (MadeOf strict) values items) : MadeOf strict (.array values) (.list items)
  | fixedArray {values : List Value} {items : List Argument}
    (each : List.Forall₂ (MadeOf strict) values items) :
    MadeOf strict (.fixedArray values) (.list items)
  | tuple {values : List Value} {items : List Argument}
    (each : List.Forall₂ (MadeOf strict) values items) : MadeOf strict (.tuple values) (.list items)

namespace Argument

variable {strict : Bool} {argument : Argument} {value : Value}

/-! ## Values without parts -/

theorem bool?_eq_some_iff {value : Bool} :
    argument.bool? = some value ↔ argument = .bool value := by
  cases argument <;> simp [bool?]

theorem text?_eq_some_iff {content : String} :
    argument.text? = some content ↔ argument = .text content := by
  cases argument <;> simp [text?]

theorem function?_eq_some_iff {pointer : SizedBytes 24} :
    argument.function? = some pointer ↔ argument = .bytes pointer.1 := by
  cases argument with
  | bytes content =>
    simp only [function?, SizedBytes.ofBytes?, Option.dite_none_right_eq_some, Option.some.injEq,
      bytes.injEq]
    constructor
    · rintro ⟨sized, rfl⟩
      rfl
    · rintro rfl
      exact ⟨pointer.2, rfl⟩
  | _ => simp [function?]

/-- A fixed byte string is taken from no more bytes than it has, and strictly from no fewer. -/
theorem fixedBytes_eq_some_iff {size : ByteCount} {content : Bytes} :
    fixedBytes strict size.1 content = some value ↔
      ∃ word : Word, word.1 = content ++ Bytes.zeros (32 - content.length) ∧
        content.length ≤ size.1 ∧ (strict = true → content.length = size.1) ∧
        value = .fixedBytes word size.1 := by
  have bounds : (content.length = size.1 ∨ (content.length < size.1 ∧ ¬strict)) ↔
      content.length ≤ size.1 ∧ (strict = true → content.length = size.1) := by
    rw [Nat.le_iff_lt_or_eq]
    tauto
  simp only [fixedBytes, bounds, Option.ite_none_right_eq_some, Option.some.injEq]
  constructor
  · rintro ⟨⟨inside, whole⟩, rfl⟩
    exact ⟨_, SizedBytes.padRight_of_le (Nat.le_trans inside size.2.2), inside, whole, rfl⟩
  · rintro ⟨word, padded, inside, whole, rfl⟩
    have same : SizedBytes.padRight 32 content = word := by
      rw [Subtype.ext_iff, SizedBytes.padRight_of_le (Nat.le_trans inside size.2.2), padded]
    exact ⟨⟨inside, whole⟩, by rw [same]⟩

/-- An argument is coerced to a fixed byte string exactly when its bytes fit, and to them with
zeros behind. -/
theorem coerce_fixedBytes_eq_some_iff {size : ByteCount} :
    coerce strict (.fixedBytes size) argument = some value ↔
      ∃ content, argument.bytes? = some content ∧
        ∃ word : Word, word.1 = content ++ Bytes.zeros (32 - content.length) ∧
          content.length ≤ size.1 ∧ (strict = true → content.length = size.1) ∧
          value = .fixedBytes word size.1 := by
  simp only [coerce, Option.bind_eq_some_iff, fixedBytes_eq_some_iff]

/-! ## Values with parts -/

/-- Items are coerced to the values that have the type of the element and are made of them. -/
theorem forall₂_coerced_iff {element : AbiType}
    (each : ∀ {argument value}, coerce strict element argument = some value ↔
      value.HasType element ∧ value.MadeOf strict argument)
    {items : List Argument} {values : List Value} :
    List.Forall₂ (fun item value => coerce strict element item = some value) items values ↔
      Value.AllHaveType values element ∧ List.Forall₂ (Value.MadeOf strict) values items := by
  induction items generalizing values with
  | nil => cases values <;> simp [Value.AllHaveType]
  | cons item items inductionHypothesis =>
    cases values with
    | nil => simp
    | cons value values =>
      rw [List.forall₂_cons, List.forall₂_cons, inductionHypothesis, each, Value.AllHaveType]
      exact and_and_and_comm

/-- Members are coerced to the values that have their types and are made of them. -/
theorem coerceEach_eq_some_iff_madeOf {types : List AbiType}
    (each : ∀ type ∈ types, ∀ {argument value}, coerce strict type argument = some value ↔
      value.HasType type ∧ value.MadeOf strict argument)
    {items : List Argument} {values : List Value} :
    coerceEach strict types items = some values ↔
      Value.HaveTypes values types ∧ List.Forall₂ (Value.MadeOf strict) values items := by
  induction types generalizing items values with
  | nil =>
    rw [coerceEach_nil_eq_some_iff]
    cases values <;> cases items <;> simp [Value.HaveTypes]
  | cons type types inductionHypothesis =>
    obtain ⟨first, others⟩ := List.forall_mem_cons.1 each
    rw [coerceEach_cons_eq_some_iff]
    cases values with
    | nil => simp [Value.HaveTypes]
    | cons value values =>
      cases items with
      | nil => simp [Value.HaveTypes]
      | cons item items =>
        simp only [List.cons.injEq, first, inductionHypothesis others, Value.HaveTypes,
          List.forall₂_cons]
        constructor
        · rintro ⟨_, _, _, _, ⟨rfl, rfl⟩, ⟨rfl, rfl⟩, ⟨typed, made⟩, othersTyped, othersMade⟩
          exact ⟨⟨typed, othersTyped⟩, made, othersMade⟩
        · rintro ⟨⟨typed, othersTyped⟩, made, othersMade⟩
          exact ⟨_, _, _, _, ⟨rfl, rfl⟩, ⟨rfl, rfl⟩, ⟨typed, made⟩, othersTyped, othersMade⟩

/-- An argument is coerced to the value of the type that is made of it. -/
theorem coerce_eq_some_iff_madeOf {type : AbiType} :
    coerce strict type argument = some value ↔
      value.HasType type ∧ value.MadeOf strict argument := by
  -- In each case the type leaves one constructor, by which the value can have been made.
  induction type generalizing argument value with
  | bool =>
    simp only [coerce, Option.map_eq_some_iff, bool?_eq_some_iff]
    constructor
    · rintro ⟨value, rfl, rfl⟩
      exact ⟨trivial, .bool value⟩
    · rintro ⟨typed, made⟩
      cases made with
      | bool value => exact ⟨value, rfl, rfl⟩
      | _ => simp [Value.HasType] at typed
  | uint width =>
    rw [coerce_uint_eq_some_iff]
    constructor
    · rintro ⟨number, supplied, fits, rfl⟩
      exact ⟨⟨rfl, fits⟩, .uint _ supplied⟩
    · rintro ⟨typed, made⟩
      cases made with
      | uint bits supplied =>
        obtain ⟨rfl, fits⟩ := typed
        exact ⟨_, supplied, fits, rfl⟩
      | _ => simp [Value.HasType] at typed
  | int width =>
    rw [coerce_int_eq_some_iff]
    constructor
    · rintro ⟨number, supplied, fits, rfl⟩
      exact ⟨⟨rfl, fits⟩, .int _ supplied⟩
    · rintro ⟨typed, made⟩
      cases made with
      | int bits supplied =>
        obtain ⟨rfl, fits⟩ := typed
        exact ⟨_, supplied, fits, rfl⟩
      | _ => simp [Value.HasType] at typed
  | fixedBytes size =>
    constructor
    · intro coerced
      refine ⟨hasType_of_coerce coerced, ?_⟩
      obtain ⟨content, supplied, word, padded, inside, whole, rfl⟩ :=
        coerce_fixedBytes_eq_some_iff.1 coerced
      exact .fixedBytes supplied padded inside whole
    · rintro ⟨typed, made⟩
      rw [coerce_fixedBytes_eq_some_iff]
      cases made with
      | fixedBytes supplied padded inside whole =>
        obtain ⟨rfl, -⟩ := typed
        exact ⟨_, supplied, _, padded, inside, whole, rfl⟩
      | _ => simp [Value.HasType] at typed
  | address =>
    simp only [coerce, Option.map_eq_some_iff]
    constructor
    · rintro ⟨place, supplied, rfl⟩
      exact ⟨trivial, .address supplied⟩
    · rintro ⟨typed, made⟩
      cases made with
      | address supplied => exact ⟨_, supplied, rfl⟩
      | _ => simp [Value.HasType] at typed
  | function =>
    simp only [coerce, Option.map_eq_some_iff, function?_eq_some_iff]
    constructor
    · rintro ⟨pointer, rfl, rfl⟩
      exact ⟨trivial, .function pointer⟩
    · rintro ⟨typed, made⟩
      cases made with
      | function pointer => exact ⟨pointer, rfl, rfl⟩
      | _ => simp [Value.HasType] at typed
  | bytes =>
    simp only [coerce, Option.map_eq_some_iff]
    constructor
    · rintro ⟨content, supplied, rfl⟩
      exact ⟨trivial, .bytes supplied⟩
    · rintro ⟨typed, made⟩
      cases made with
      | bytes supplied => exact ⟨_, supplied, rfl⟩
      | _ => simp [Value.HasType] at typed
  | string =>
    simp only [coerce, Option.map_eq_some_iff, text?_eq_some_iff]
    constructor
    · rintro ⟨content, rfl, rfl⟩
      exact ⟨trivial, .string content⟩
    · rintro ⟨typed, made⟩
      cases made with
      | string content => exact ⟨content, rfl, rfl⟩
      | _ => simp [Value.HasType] at typed
  | array element inductionHypothesis =>
    rw [coerce_array_eq_some_iff]
    simp only [forall₂_coerced_iff inductionHypothesis]
    constructor
    · rintro ⟨items, values, rfl, rfl, typed, each⟩
      exact ⟨typed, .array each⟩
    · rintro ⟨typed, made⟩
      cases made with
      | array each => exact ⟨_, _, rfl, rfl, typed, each⟩
      | _ => simp [Value.HasType] at typed
  | fixedArray element length inductionHypothesis =>
    rw [coerce_fixedArray_eq_some_iff]
    simp only [forall₂_coerced_iff inductionHypothesis]
    constructor
    · rintro ⟨items, values, rfl, rfl, counted, typed, each⟩
      exact ⟨⟨each.length_eq.trans counted, typed⟩, .fixedArray each⟩
    · rintro ⟨typed, made⟩
      cases made with
      | fixedArray each =>
        obtain ⟨counted, typed⟩ := typed
        exact ⟨_, _, rfl, rfl, each.length_eq.symm.trans counted, typed, each⟩
      | _ => simp [Value.HasType] at typed
  | tuple members inductionHypothesis =>
    rw [coerce_tuple_eq_some_iff]
    simp only [coerceEach_eq_some_iff_madeOf inductionHypothesis]
    constructor
    · rintro ⟨items, values, rfl, rfl, typed, each⟩
      exact ⟨typed, .tuple each⟩
    · rintro ⟨typed, made⟩
      cases made with
      | tuple each => exact ⟨_, _, rfl, rfl, typed, each⟩
      | _ => simp [Value.HasType] at typed

/-- At a type that is read from a text, an argument is coerced to the value that has the type and
is made of the argument: integers in the range of their width, byte strings with zeros behind and
strictly of the demanded size, and arrays and tuples item by item. No step breaks down. -/
theorem coerceText_eq_some_iff_madeOf (strict : Bool) {text : String} {type : AbiType}
    (parsed : AbiType.parse text = .ok type) (argument : Argument) :
    coerceBySteps strict type argument =
        Attempt.completed (coerceText strict text argument) ∧
      ∀ value, coerceText strict text argument = some value ↔
        value.HasType type ∧ value.MadeOf strict argument := by
  have read : coerceText strict text argument = coerce strict type argument := by
    rw [coerceText, AbiType.parse?_eq_some_iff.2 parsed, Option.bind_some]
  rw [read]
  exact ⟨coerceBySteps_eq strict type argument, fun _ => coerce_eq_some_iff_madeOf⟩

/-- Two bytes make up a fixed byte string of four with two zeros, but not strictly. -/
theorem coerceText_eq_some_iff_madeOf_of_pairs :
    let type : AbiType :=
      .fixedArray (.tuple [.fixedBytes ⟨4, by decide⟩, .int ⟨8, by decide⟩]) ⟨2, by decide⟩
    let argument : Argument :=
      .list [.list [.bytes [1, 2], .int ⟨-128, by decide, by decide⟩],
        .list [.text "0x01020304", .uint ⟨127, by decide⟩]]
    let value : Value :=
      .fixedArray [
        .tuple [.fixedBytes (SizedBytes.padRight 32 [1, 2]) 4, .int ⟨-128, by decide, by decide⟩ 8],
        .tuple [.fixedBytes (SizedBytes.padRight 32 [1, 2, 3, 4]) 4,
          .int ⟨127, by decide, by decide⟩ 8]]
    AbiType.parse "(bytes4,int8)[2]" = .ok type ∧ value.HasType type ∧
      value.MadeOf false argument ∧ ¬value.MadeOf true argument ∧
      coerceBySteps false type argument = Attempt.completed (some value) ∧
      coerceBySteps true type argument = Attempt.completed none := by
  intro type argument value
  have parsed : AbiType.parse "(bytes4,int8)[2]" = .ok type := by cbv
  have taken : coerceText false "(bytes4,int8)[2]" argument = some value := by cbv
  have refused : coerceText true "(bytes4,int8)[2]" argument = none := by cbv
  obtain ⟨steps, meaning⟩ := coerceText_eq_some_iff_madeOf false parsed argument
  obtain ⟨strictSteps, strictMeaning⟩ := coerceText_eq_some_iff_madeOf true parsed argument
  obtain ⟨typed, made⟩ := (meaning value).1 taken
  refine ⟨parsed, typed, made, ?_, steps.trans (congrArg _ taken),
    strictSteps.trans (congrArg _ refused)⟩
  intro strictlyMade
  have strictlyTaken := (strictMeaning value).2 ⟨typed, strictlyMade⟩
  rw [refused] at strictlyTaken
  cases strictlyTaken

end Argument

end ContractAbi
