import ContractAbi.Argument.Coercion
import Mathlib.Data.List.Forall2

/-!
# Coerced values

Coercion succeeds on a list exactly when it succeeds on each item, and what an argument is coerced
to has the type that was asked for (`Argument.hasType_of_coerce`).
-/

namespace ContractAbi.Argument

variable {strict : Bool}

/-- Items are coerced together when each one is coerced. -/
theorem mapM_eq_some_iff {change : Argument → Option Value} {items : List Argument}
    {values : List Value} :
    items.mapM change = some values ↔
      List.Forall₂ (fun item value => change item = some value) items values := by
  induction items generalizing values with
  | nil => simp [eq_comm]
  | cons item items inductionHypothesis =>
    simp only [List.mapM_cons, Option.bind_eq_bind, Option.bind_eq_some_iff, Option.pure_def,
      Option.some.injEq, inductionHypothesis, List.forall₂_cons_left_iff]
    grind

theorem exists_coerced_of_mem {change : Argument → Option Value} {items : List Argument}
    {values : List Value}
    (each : List.Forall₂ (fun item value => change item = some value) items values) :
    ∀ item ∈ items, ∃ value, change item = some value := by
  induction each with
  | nil => simp
  | cons first _ inductionHypothesis =>
    exact List.forall_mem_cons.2 ⟨⟨_, first⟩, inductionHypothesis⟩

/-- Arguments are coerced at several types when the first one is coerced at the first type and the
others are at the other types. -/
theorem coerceEach_cons_eq_some_iff {type : AbiType} {types : List AbiType}
    {arguments : List Argument} {values : List Value} :
    coerceEach strict (type :: types) arguments = some values ↔
      ∃ argument otherArguments value otherValues,
        arguments = argument :: otherArguments ∧ values = value :: otherValues ∧
        coerce strict type argument = some value ∧
        coerceEach strict types otherArguments = some otherValues := by
  cases arguments with
  | nil => simp [coerceEach]
  | cons argument arguments =>
    simp only [coerceEach]
    split
    · next value otherValues first others => simp [first, others, eq_comm]
    · next failed =>
      simp only [reduceCtorEq, false_iff]
      rintro ⟨_, _, value, otherValues, equal, -, first, others⟩
      obtain ⟨rfl, rfl⟩ := List.cons.inj equal
      exact failed value otherValues first others

theorem coerceEach_nil_eq_some_iff {arguments : List Argument} {values : List Value} :
    coerceEach strict [] arguments = some values ↔ arguments = [] ∧ values = [] := by
  cases arguments <;> simp [coerceEach, eq_comm]

/-- Lists, and nothing else, are coerced to arrays, item by item. -/
theorem coerce_array_eq_some_iff {element : AbiType} {argument : Argument} {value : Value} :
    coerce strict (.array element) argument = some value ↔
      ∃ items values, argument = .list items ∧ value = .array values ∧
        List.Forall₂ (fun item value => coerce strict element item = some value) items values := by
  cases argument with
  | list items =>
    simp only [coerce, list?, Option.map_eq_some_iff, mapM_eq_some_iff, list.injEq]
    grind
  | _ => simp [coerce, list?]

/-- Lists of the right length, and nothing else, are coerced to fixed arrays, item by item. -/
theorem coerce_fixedArray_eq_some_iff {element : AbiType} {length : ArrayLength}
    {argument : Argument} {value : Value} :
    coerce strict (.fixedArray element length) argument = some value ↔
      ∃ items values, argument = .list items ∧ value = .fixedArray values ∧
        items.length = length.1 ∧
        List.Forall₂ (fun item value => coerce strict element item = some value) items values := by
  cases argument with
  | list items =>
    simp only [coerce, list?, Option.ite_none_right_eq_some, Option.map_eq_some_iff,
      mapM_eq_some_iff, list.injEq]
    grind
  | _ => simp [coerce, list?]

/-- Lists, and nothing else, are coerced to tuples, member by member. -/
theorem coerce_tuple_eq_some_iff {members : List AbiType} {argument : Argument} {value : Value} :
    coerce strict (.tuple members) argument = some value ↔
      ∃ items values, argument = .list items ∧ value = .tuple values ∧
        coerceEach strict members items = some values := by
  cases argument with
  | list items =>
    simp only [coerce, list?, Option.map_eq_some_iff, list.injEq]
    grind
  | _ => simp [coerce, list?]

/-! ## Types of coerced values -/

/-- A fixed byte string is filled up with zeros. -/
theorem hasType_of_fixedBytes {size : ByteCount} {content : Bytes} {value : Value}
    (taken : fixedBytes strict size.1 content = some value) :
    value.HasType (.fixedBytes size) := by
  unfold fixedBytes at taken
  split at taken
  · next fits =>
    cases taken
    have short : content.length ≤ size.1 := by omega
    have inside : content.length ≤ 32 := Nat.le_trans short size.2.2
    refine ⟨rfl, ?_⟩
    intro byte member
    rw [SizedBytes.padRight_of_le inside, List.drop_append, List.drop_of_length_le short,
      List.nil_append] at member
    exact List.eq_of_mem_replicate (List.mem_of_mem_drop member)
  · cases taken

/-- Coerced items all have the type of the element. -/
theorem allHaveType_of_forall₂ {element : AbiType} {items : List Argument} {values : List Value}
    (each : ∀ {item value}, coerce strict element item = some value → value.HasType element)
    (coerced : List.Forall₂ (fun item value => coerce strict element item = some value)
      items values) : Value.AllHaveType values element := by
  induction coerced with
  | nil => trivial
  | cons first _ inductionHypothesis => exact ⟨each first, inductionHypothesis⟩

/-- Coerced members have their types. -/
theorem haveTypes_of_coerceEach {types : List AbiType} {arguments : List Argument}
    {values : List Value}
    (each : ∀ type ∈ types, ∀ {argument value},
      coerce strict type argument = some value → value.HasType type)
    (coerced : coerceEach strict types arguments = some values) :
    Value.HaveTypes values types := by
  induction types generalizing arguments values with
  | nil =>
    obtain ⟨-, rfl⟩ := coerceEach_nil_eq_some_iff.1 coerced
    trivial
  | cons type types inductionHypothesis =>
    obtain ⟨_, _, value, otherValues, rfl, rfl, first, rest⟩ :=
      coerceEach_cons_eq_some_iff.1 coerced
    exact ⟨each type List.mem_cons_self first,
      inductionHypothesis (fun type member => each type (List.mem_cons_of_mem _ member)) rest⟩

/-- What an argument is coerced to has the type that was asked for. -/
theorem hasType_of_coerce {type : AbiType} {argument : Argument} {value : Value}
    (coerced : coerce strict type argument = some value) : value.HasType type := by
  induction type generalizing argument value with
  | bool | address | function | bytes | string =>
    simp only [coerce, Option.map_eq_some_iff] at coerced
    obtain ⟨_, -, rfl⟩ := coerced
    trivial
  | uint width | int width =>
    simp only [coerce] at coerced
    split at coerced
    · next number taken =>
      split at coerced
      · next fits =>
        cases coerced
        exact ⟨rfl, fits⟩
      · cases coerced
    · cases coerced
  | fixedBytes size =>
    simp only [coerce, Option.bind_eq_some_iff] at coerced
    obtain ⟨_, -, taken⟩ := coerced
    exact hasType_of_fixedBytes taken
  | array element inductionHypothesis =>
    obtain ⟨items, values, -, rfl, each⟩ := coerce_array_eq_some_iff.1 coerced
    exact allHaveType_of_forall₂ inductionHypothesis each
  | fixedArray element length inductionHypothesis =>
    obtain ⟨items, values, -, rfl, count, each⟩ := coerce_fixedArray_eq_some_iff.1 coerced
    exact ⟨each.length_eq ▸ count, allHaveType_of_forall₂ inductionHypothesis each⟩
  | tuple members inductionHypothesis =>
    obtain ⟨items, values, -, rfl, each⟩ := coerce_tuple_eq_some_iff.1 coerced
    exact haveTypes_of_coerceEach inductionHypothesis each

end ContractAbi.Argument
