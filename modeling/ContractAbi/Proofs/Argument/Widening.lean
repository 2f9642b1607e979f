import ContractAbi.Proofs.Argument.Number

/-!
# Wider types

Types are ordered by how much they take: by their width, by whether they fix a size, and part by
part. An argument that can be coerced at a type can be coerced at every type above it
(`Argument.exists_coerced_of_isBelow`).
-/

namespace ContractAbi

/-- The order of types by how much they take. -/
inductive AbiType.IsBelow : (narrow wide : AbiType) → Prop where
  | refl (type : AbiType) : IsBelow type type
  | uint {narrow wide : IntegerWidth} (widens : narrow.1 ≤ wide.1) :
    IsBelow (.uint narrow) (.uint wide)
  | int {narrow wide : IntegerWidth} (widens : narrow.1 ≤ wide.1) :
    IsBelow (.int narrow) (.int wide)
  /-- A signed integer needs one bit more than an unsigned one. -/
  | signed {narrow wide : IntegerWidth} (widens : narrow.1 < wide.1) :
    IsBelow (.uint narrow) (.int wide)
  | bytes (size : ByteCount) : IsBelow (.fixedBytes size) .bytes
  | array {narrow wide : AbiType} (element : IsBelow narrow wide) :
    IsBelow (.array narrow) (.array wide)
  | fixedArray {narrow wide : AbiType} (length : ArrayLength) (element : IsBelow narrow wide) :
    IsBelow (.fixedArray narrow length) (.fixedArray wide length)
  | unsized {narrow wide : AbiType} (length : ArrayLength) (element : IsBelow narrow wide) :
    IsBelow (.fixedArray narrow length) (.array wide)
  | tuple {narrows wides : List AbiType} (members : List.Forall₂ IsBelow narrows wides) :
    IsBelow (.tuple narrows) (.tuple wides)

namespace Argument

variable {strict : Bool}

/-- Items have values together when each of them has one. -/
theorem exists_forall₂_of_each {change : Argument → Option Value} {items : List Argument}
    (each : ∀ item ∈ items, ∃ value, change item = some value) :
    ∃ values, List.Forall₂ (fun item value => change item = some value) items values := by
  induction items with
  | nil => exact ⟨[], .nil⟩
  | cons item items inductionHypothesis =>
    obtain ⟨⟨value, first⟩, others⟩ := List.forall_mem_cons.1 each
    obtain ⟨values, rest⟩ := inductionHypothesis others
    exact ⟨value :: values, .cons first rest⟩

/-- Items that are coerced at an element type are coerced at a wider one. -/
theorem exists_items_of_isBelow {narrow wide : AbiType} {items : List Argument}
    {values : List Value}
    (widens : ∀ {argument value}, coerce strict narrow argument = some value →
      ∃ wider, coerce strict wide argument = some wider)
    (each : List.Forall₂ (fun item value => coerce strict narrow item = some value) items values) :
    ∃ wider, List.Forall₂ (fun item value => coerce strict wide item = some value) items wider := by
  apply exists_forall₂_of_each
  intro item member
  obtain ⟨value, coerced⟩ := exists_coerced_of_mem each item member
  exact widens coerced

/-- Members that are coerced at their types are coerced at wider ones. -/
theorem exists_members_of_isBelow {narrows wides : List AbiType}
    (widens : ∀ narrow ∈ narrows, ∀ {wide}, narrow.IsBelow wide → ∀ {argument value},
      coerce strict narrow argument = some value →
        ∃ wider, coerce strict wide argument = some wider)
    (members : List.Forall₂ AbiType.IsBelow narrows wides) {items : List Argument}
    {values : List Value} (coerced : coerceEach strict narrows items = some values) :
    ∃ wider, coerceEach strict wides items = some wider := by
  induction members generalizing items values with
  | nil => exact ⟨values, coerced⟩
  | cons below _ inductionHypothesis =>
    obtain ⟨firstWidens, othersWiden⟩ := List.forall_mem_cons.1 widens
    obtain ⟨item, others, value, otherValues, rfl, rfl, first, rest⟩ :=
      coerceEach_cons_eq_some_iff.1 coerced
    obtain ⟨wider, firstWider⟩ := firstWidens below first
    obtain ⟨otherWider, restWider⟩ := inductionHypothesis othersWiden rest
    exact ⟨wider :: otherWider, coerceEach_cons_eq_some_iff.2
      ⟨item, others, wider, otherWider, rfl, rfl, firstWider, restWider⟩⟩

/-- An argument that is coerced at a type is coerced at every type above it. -/
theorem exists_coerced_of_isBelow {narrow wide : AbiType} (below : narrow.IsBelow wide)
    {argument : Argument} {value : Value} (coerced : coerce strict narrow argument = some value) :
    ∃ wider, coerce strict wide argument = some wider := by
  induction narrow generalizing wide argument value with
  | bool | address | function | bytes | string =>
    cases below
    exact ⟨value, coerced⟩
  | uint width =>
    cases below with
    | refl => exact ⟨value, coerced⟩
    | uint widens =>
      obtain ⟨number, isNumber, fits, -⟩ := coerce_uint_eq_some_iff.1 coerced
      exact ⟨_, coerce_uint_eq_some_iff.2 ⟨number, isNumber, fits.mono widens, rfl⟩⟩
    | @signed _ wide widens =>
      obtain ⟨number, isNumber, fits, -⟩ := coerce_uint_eq_some_iff.1 coerced
      obtain ⟨signed, same, fitsWide⟩ := Int256.exists_fits_of_unsigned fits widens wide.2.2.2
      exact ⟨_, coerce_int_eq_some_iff.2 ⟨signed, same ▸ isNumber, fitsWide, rfl⟩⟩
  | int width =>
    cases below with
    | refl => exact ⟨value, coerced⟩
    | int widens =>
      obtain ⟨number, isNumber, fits, -⟩ := coerce_int_eq_some_iff.1 coerced
      exact ⟨_, coerce_int_eq_some_iff.2 ⟨number, isNumber, fits.mono widens, rfl⟩⟩
  | fixedBytes size =>
    cases below with
    | refl => exact ⟨value, coerced⟩
    | bytes =>
      simp only [coerce, Option.bind_eq_some_iff] at coerced
      obtain ⟨content, isContent, -⟩ := coerced
      exact ⟨.bytes content, by simp only [coerce, isContent, Option.map_some]⟩
  | array element inductionHypothesis =>
    cases below with
    | refl => exact ⟨value, coerced⟩
    | array element =>
      obtain ⟨items, values, rfl, rfl, each⟩ := coerce_array_eq_some_iff.1 coerced
      obtain ⟨wider, eachWider⟩ := exists_items_of_isBelow (inductionHypothesis element) each
      exact ⟨.array wider, coerce_array_eq_some_iff.2 ⟨items, wider, rfl, rfl, eachWider⟩⟩
  | fixedArray element length inductionHypothesis =>
    cases below with
    | refl => exact ⟨value, coerced⟩
    | fixedArray _ element =>
      obtain ⟨items, values, rfl, rfl, counted, each⟩ := coerce_fixedArray_eq_some_iff.1 coerced
      obtain ⟨wider, eachWider⟩ := exists_items_of_isBelow (inductionHypothesis element) each
      exact ⟨.fixedArray wider,
        coerce_fixedArray_eq_some_iff.2 ⟨items, wider, rfl, rfl, counted, eachWider⟩⟩
    | unsized _ element =>
      obtain ⟨items, values, rfl, rfl, counted, each⟩ := coerce_fixedArray_eq_some_iff.1 coerced
      obtain ⟨wider, eachWider⟩ := exists_items_of_isBelow (inductionHypothesis element) each
      exact ⟨.array wider, coerce_array_eq_some_iff.2 ⟨items, wider, rfl, rfl, eachWider⟩⟩
  | tuple members inductionHypothesis =>
    cases below with
    | refl => exact ⟨value, coerced⟩
    | tuple below =>
      obtain ⟨items, values, rfl, rfl, each⟩ := coerce_tuple_eq_some_iff.1 coerced
      obtain ⟨wider, eachWider⟩ := exists_members_of_isBelow inductionHypothesis below each
      exact ⟨.tuple wider, coerce_tuple_eq_some_iff.2 ⟨items, wider, rfl, rfl, eachWider⟩⟩

theorem isSome_coerce_of_isBelow {narrow wide : AbiType} (below : narrow.IsBelow wide)
    {argument : Argument} (coerced : (coerce strict narrow argument).isSome = true) :
    (coerce strict wide argument).isSome = true := by
  obtain ⟨value, found⟩ := Option.isSome_iff_exists.1 coerced
  exact Option.isSome_iff_exists.2 (exists_coerced_of_isBelow below found)

end Argument

end ContractAbi
