import ContractAbi.Call.Alignment
import ContractAbi.Proofs.Argument.Coercion
import ContractAbi.Proofs.Interface.DeclaredType
import Mathlib.Data.List.Induction

/-!
# Aligned arguments

Inputs are aligned when each canonical type stands for a type and each argument fits its input. What
comes out are the canonical types in order, with one argument each. An argument that can be coerced
at the declared type has the right shape already and stays as it is (`Alignment.align_of_coerce`),
and only mappings are ever changed (`Alignment.eq_of_align`).
-/

namespace ContractAbi

namespace Argument

mutual
/-- Whether there is a mapping in the argument, at any depth. -/
def hasMapping : Argument → Bool
  | .list items => anyHasMapping items
  | .map _ => true
  | .bool _ | .int _ | .uint _ | .text _ | .bytes _ | .address _ => false

/-- Whether there is a mapping in one of the arguments, at any depth. -/
def anyHasMapping : List Argument → Bool
  | [] => false
  | item :: items => item.hasMapping || anyHasMapping items
end

theorem anyHasMapping_eq_any (items : List Argument) :
    anyHasMapping items = items.any hasMapping := by
  induction items with
  | nil => rfl
  | cons item items inductionHypothesis => rw [anyHasMapping, inductionHypothesis, List.any_cons]

/-- A list has no mapping in it when none of its items has. -/
theorem hasMapping_list_eq_false_iff {items : List Argument} :
    (list items).hasMapping = false ↔ ∀ item ∈ items, item.hasMapping = false := by
  rw [hasMapping, anyHasMapping_eq_any, List.any_eq_false]
  simp only [Bool.not_eq_true]

end Argument

namespace Alignment

/-- Inputs are aligned when each of them has a type and each argument is aligned to its input. -/
theorem alignInputs_eq_ok_iff {inputs : List Param} {arguments : List Argument}
    (counted : inputs.length = arguments.length) {types : List String} {aligned : List Argument} :
    alignInputs inputs arguments = .ok (types, aligned) ↔
      types = inputs.map Param.canonicalType ∧
      (∀ input ∈ inputs, ∃ type, AbiType.parse input.canonicalType = .ok type) ∧
      List.zipWith align inputs arguments = aligned.map .ok := by
  induction inputs generalizing arguments types aligned with
  | nil => simp [alignInputs, eq_comm]
  | cons input inputs inductionHypothesis =>
    cases arguments with
    | nil => simp at counted
    | cons argument arguments =>
      have counted : inputs.length = arguments.length := Nat.succ.inj counted
      cases parsed : AbiType.parse input.canonicalType with
      | error fault => simp [alignInputs, parsed]
      | ok type =>
        simp only [alignInputs, parsed, Outcome.bind_eq_ok, Outcome.pure_eq, Except.ok.injEq,
          Prod.exists, inductionHypothesis counted, List.map_cons, List.forall_mem_cons,
          List.zipWith_cons_cons]
        cases aligned with
        | nil => simp
        | cons first others => grind

/-! ## Arguments in the right shape -/

/-- A group of brackets without brackets in it is counted as one. -/
theorem bracketGroups_within {digits : List Char} (free : '[' ∉ digits) (more : List Char) :
    bracketGroups true (digits ++ '[' :: more) = bracketGroups false more + 1 := by
  induction digits with
  | nil => simp [bracketGroups]
  | cons char digits inductionHypothesis =>
    simp only [List.mem_cons, not_or] at free
    rw [List.cons_append, bracketGroups, if_neg (Ne.symm free.1), inductionHypothesis free.2]

/-- The text is this many array sizes, each of them brackets around digits or around nothing. -/
inductive SizesText : List Char → (levels : Nat) → Prop where
  | stop : SizesText [] 0
  | size {digits rest : List Char} {levels : Nat}
    (areDigits : ∀ char ∈ digits, char.isDigit = true) (others : SizesText rest levels) :
    SizesText ('[' :: (digits ++ ']' :: rest)) (levels + 1)

/-- Array sizes that stand for lengths are array sizes. -/
theorem SizesText.of_sizes {suffix : List Char} {sizes : List (Option ArrayLength)}
    (spelled : TypeSyntax.Sizes suffix sizes []) : SizesText suffix sizes.length := by
  generalize nothing : ([] : List Char) = rest at spelled
  induction spelled with
  | stop => exact nothing ▸ .stop
  | next read _ inductionHypothesis =>
    obtain ⟨digits, areDigits, -, rfl⟩ := TypeSyntax.readSize_eq_some_iff.1 read
    exact .size areDigits (inductionHypothesis nothing)

/-- Array sizes at the end of a text are counted as that many levels. -/
theorem SizesText.bracketGroups_eq {suffix : List Char} {levels : Nat}
    (spelled : SizesText suffix levels) (more : List Char) :
    bracketGroups false (suffix.reverse ++ more) = levels + bracketGroups false more := by
  induction spelled generalizing more with
  | stop => simp
  | @size digits rest levels areDigits _ inductionHypothesis =>
    have free : '[' ∉ digits.reverse := by
      intro member
      exact absurd (areDigits _ (List.mem_reverse.1 member)) (by decide)
    have behind := inductionHypothesis (']' :: (digits.reverse ++ '[' :: more))
    have group : bracketGroups false (']' :: (digits.reverse ++ '[' :: more)) =
        bracketGroups false more + 1 := bracketGroups_within free more
    simp only [List.reverse_cons, List.reverse_append, List.append_assoc, List.cons_append,
      List.nil_append, behind, group]
    omega

theorem SizesText.arrayLevels_eq {suffix : List Char} {levels : Nat}
    (spelled : SizesText suffix levels) : arrayLevels suffix = levels := by
  have groups := spelled.bracketGroups_eq []
  simpa [arrayLevels, bracketGroups] using groups

theorem mapM_eq_self {step : Argument → Except EncodingError Argument} {items : List Argument}
    (fixed : ∀ item ∈ items, step item = .ok item) : items.mapM step = .ok items := by
  induction items with
  | nil => rfl
  | cons item items inductionHypothesis =>
    obtain ⟨first, others⟩ := List.forall_mem_cons.1 fixed
    simp [List.mapM_cons, first, inductionHypothesis others]

/-- All items have results exactly when each of them has one. -/
theorem mapM_eq_ok_iff {α β : Type} {step : α → Except EncodingError β} {items : List α}
    {results : List β} :
    items.mapM step = .ok results ↔
      List.Forall₂ (fun result item => step item = .ok result) results items := by
  induction items generalizing results with
  | nil => simp [eq_comm]
  | cons item items inductionHypothesis =>
    simp only [List.mapM_cons, Outcome.bind_eq_ok, Outcome.pure_eq, Except.ok.injEq,
      inductionHypothesis]
    cases results with
    | nil => simp
    | cons result results => simp

/-- The first item without a result decides about the error of all. -/
theorem mapM_eq_error {α β : Type} {step : α → Except EncodingError β} {before after : List α}
    {item : α} {error : EncodingError} (front : ∀ other ∈ before, ∃ result, step other = .ok result)
    (failed : step item = .error error) : (before ++ item :: after).mapM step = .error error := by
  induction before with
  | nil => simp [failed]
  | cons first before inductionHypothesis =>
    obtain ⟨⟨result, firstFine⟩, othersFine⟩ := List.forall_mem_cons.1 front
    rw [List.cons_append, List.mapM_cons, firstFine, Outcome.ok_bind,
      inductionHypothesis othersFine, Outcome.error_bind]

variable {strict : Bool}

/-- Array levels leave an argument as it is when what stands below them is left as it is. -/
theorem alignLevels_of_coerce {name : String} {leaf : Argument → Except EncodingError Argument}
    {base : AbiType}
    (fixed : ∀ {argument value}, argument.coerce strict base = some value →
      leaf argument = .ok argument)
    {sizes : List (Option ArrayLength)} {argument : Argument} {value : Value}
    (coerced : argument.coerce strict (base.withSizes sizes) = some value) :
    alignLevels name leaf sizes.length argument = .ok argument := by
  induction sizes using List.reverseRecOn generalizing argument value with
  | nil => exact fixed coerced
  | append_singleton sizes size inductionHypothesis =>
    -- The last size is the outermost array, whose items are coerced at what the others make.
    obtain ⟨items, rfl, each⟩ : ∃ items, argument = .list items ∧ ∀ item ∈ items,
        ∃ value, item.coerce strict (base.withSizes sizes) = some value := by
      rw [AbiType.withSizes, List.foldl_append] at coerced
      cases size with
      | none =>
        obtain ⟨items, values, rfl, -, each⟩ := Argument.coerce_array_eq_some_iff.1 coerced
        exact ⟨items, rfl, Argument.exists_coerced_of_mem each⟩
      | some length =>
        obtain ⟨items, values, rfl, -, -, each⟩ := Argument.coerce_fixedArray_eq_some_iff.1 coerced
        exact ⟨items, rfl, Argument.exists_coerced_of_mem each⟩
    have same : items.mapM (alignLevels name leaf sizes.length) = .ok items := by
      apply mapM_eq_self
      intro item member
      obtain ⟨value, itemCoerced⟩ := each item member
      exact inductionHypothesis itemCoerced
    rw [List.length_append, List.length_singleton, alignLevels, same]
    rfl

/-- Arguments that can be coerced at the declared types of components are as many as these, and
stay as they are when each single one does. -/
theorem alignEach_of_coerce {components : List Param} {types : List AbiType}
    (declared : Param.declaredTypes? components = some types)
    (each : ∀ component ∈ components, ∀ {type}, component.declaredType? = some type →
      ∀ {argument value}, Argument.coerce strict type argument = some value →
        align component argument = .ok argument)
    {items : List Argument} {values : List Value}
    (coerced : Argument.coerceEach strict types items = some values) :
    items.length = components.length ∧ alignEach components items = .ok items := by
  induction components generalizing types items values with
  | nil =>
    obtain rfl := Option.some.inj declared
    obtain ⟨rfl, -⟩ := Argument.coerceEach_nil_eq_some_iff.1 coerced
    exact ⟨rfl, rfl⟩
  | cons component components inductionHypothesis =>
    obtain ⟨type, otherTypes, rfl, first, rest⟩ := Param.declaredTypes?_cons_eq_some_iff.1 declared
    obtain ⟨item, otherItems, value, otherValues, rfl, rfl, itemCoerced, othersCoerced⟩ :=
      Argument.coerceEach_cons_eq_some_iff.1 coerced
    obtain ⟨eachFirst, eachOther⟩ := List.forall_mem_cons.1 each
    obtain ⟨counted, aligned⟩ := inductionHypothesis rest eachOther othersCoerced
    refine ⟨by rw [List.length_cons, List.length_cons, counted], ?_⟩
    simp only [alignEach, eachFirst first itemCoerced, aligned, Outcome.ok_bind, Outcome.pure_eq]

/-- An argument that can be coerced at the declared type of a parameter is aligned already. -/
theorem align_of_coerce {param : Param} {type : AbiType}
    (declared : param.declaredType? = some type) {argument : Argument} {value : Value}
    (coerced : argument.coerce strict type = some value) : align param argument = .ok argument := by
  induction param generalizing type argument value with
  | mk name text components internalType inductionHypothesis =>
    simp only [Param.declaredType?] at declared
    split at declared
    · next plain => simp [align, plain]
    · next suffix tuple =>
      split at declared
      · next sizes members spelled membersDeclared =>
        obtain rfl := Option.some.inj declared
        have levels := (SizesText.of_sizes (AbiType.sizes_of_arraySizes? spelled)).arrayLevels_eq
        simp only [align, tuple, levels]
        apply alignLevels_of_coerce _ coerced
        intro argument value tupleCoerced
        obtain ⟨items, values, rfl, -, itemsCoerced⟩ :=
          Argument.coerce_tuple_eq_some_iff.1 tupleCoerced
        obtain ⟨counted, aligned⟩ :=
          alignEach_of_coerce membersDeclared inductionHypothesis itemsCoerced
        simp only [componentValues, counted, ↓reduceIte, aligned, Outcome.ok_bind, Outcome.pure_eq]
      · cases declared

/-! ## Arguments without mappings -/

theorem eq_of_mapM_eq_ok {step : Argument → Except EncodingError Argument}
    {items results : List Argument}
    (each : ∀ item ∈ items, ∀ {result}, step item = .ok result → result = item)
    (mapped : items.mapM step = .ok results) : results = items := by
  induction items generalizing results with
  | nil =>
    cases mapped
    rfl
  | cons item items inductionHypothesis =>
    obtain ⟨first, others⟩ := List.forall_mem_cons.1 each
    simp only [List.mapM_cons, Outcome.bind_eq_ok, Outcome.pure_eq, Except.ok.injEq] at mapped
    obtain ⟨result, firstMapped, otherResults, othersMapped, rfl⟩ := mapped
    rw [first firstMapped, inductionHypothesis others othersMapped]

/-- Array levels leave an argument without mappings as it is when what stands below them does. -/
theorem eq_of_alignLevels {name : String} {leaf : Argument → Except EncodingError Argument}
    (below : ∀ {argument aligned}, argument.hasMapping = false → leaf argument = .ok aligned →
      aligned = argument)
    {levels : Nat} {argument aligned : Argument} (plain : argument.hasMapping = false)
    (aligns : alignLevels name leaf levels argument = .ok aligned) : aligned = argument := by
  induction levels generalizing argument aligned with
  | zero => exact below plain aligns
  | succ levels inductionHypothesis =>
    cases argument with
    | list items =>
      obtain ⟨results, mapped, rfl⟩ := Outcome.map_eq_ok.1 aligns
      rw [eq_of_mapM_eq_ok _ mapped]
      intro item member result itemAligns
      exact inductionHypothesis (Argument.hasMapping_list_eq_false_iff.1 plain item member)
        itemAligns
    | _ => cases aligns

/-- Arguments without mappings stay as they are when each single one does. -/
theorem eq_of_alignEach {params : List Param}
    (each : ∀ param ∈ params, ∀ {argument aligned}, argument.hasMapping = false →
      align param argument = .ok aligned → aligned = argument)
    {arguments aligned : List Argument} (counted : arguments.length = params.length)
    (plain : ∀ argument ∈ arguments, argument.hasMapping = false)
    (aligns : alignEach params arguments = .ok aligned) : aligned = arguments := by
  induction params generalizing arguments aligned with
  | nil =>
    obtain rfl := List.length_eq_zero_iff.1 counted
    cases aligns
    rfl
  | cons param params inductionHypothesis =>
    obtain ⟨eachFirst, eachOther⟩ := List.forall_mem_cons.1 each
    match arguments with
    | argument :: arguments =>
      obtain ⟨firstPlain, othersPlain⟩ := List.forall_mem_cons.1 plain
      simp only [alignEach, Outcome.bind_eq_ok, Outcome.pure_eq, Except.ok.injEq] at aligns
      obtain ⟨first, firstAligns, others, othersAlign, rfl⟩ := aligns
      rw [eachFirst firstPlain firstAligns,
        inductionHypothesis eachOther (Nat.succ.inj counted) othersPlain othersAlign]

/-- Alignment leaves an argument without mappings as it is. -/
theorem eq_of_align {param : Param} {argument aligned : Argument}
    (plain : argument.hasMapping = false) (aligns : align param argument = .ok aligned) :
    aligned = argument := by
  induction param generalizing argument aligned with
  | mk name type components internalType inductionHypothesis =>
    simp only [align] at aligns
    split at aligns
    · cases aligns
      rfl
    · refine eq_of_alignLevels ?_ plain aligns
      intro argument aligned tuplePlain tupleAligns
      simp only [Outcome.bind_eq_ok, Outcome.pure_eq, Except.ok.injEq] at tupleAligns
      obtain ⟨values, isValues, others, othersAlign, rfl⟩ := tupleAligns
      cases argument with
      | list items =>
        rw [Argument.hasMapping_list_eq_false_iff] at tuplePlain
        simp only [componentValues] at isValues
        split at isValues
        · next counted =>
          cases isValues
          rw [eq_of_alignEach inductionHypothesis counted tuplePlain othersAlign]
        · cases isValues
      | map => cases tuplePlain
      | _ => cases isValues

end Alignment

/-- An element is aligned when there is one argument for each input and its inputs are aligned. -/
theorem Element.align_eq_ok_iff {element : Element} {arguments : List Argument}
    {types : List String} {aligned : List Argument} :
    element.align arguments = .ok (types, aligned) ↔
      element.inputCount = arguments.length ∧ types = element.inputTypes ∧
      (∀ input ∈ element.inputs, ∃ type, AbiType.parse input.canonicalType = .ok type) ∧
      List.zipWith Alignment.align element.inputs arguments = aligned.map .ok := by
  unfold Element.align
  split
  · next miscounted => simp [miscounted]
  · next counted =>
    rw [Decidable.not_not] at counted
    simp [Alignment.alignInputs_eq_ok_iff counted, counted, inputTypes]

/-- Aligned arguments are as many as their types. -/
theorem Element.length_of_align {element : Element} {arguments aligned : List Argument}
    {types : List String} (aligns : element.align arguments = .ok (types, aligned)) :
    aligned.length = types.length := by
  obtain ⟨counted, rfl, -, each⟩ := align_eq_ok_iff.1 aligns
  have lengths := congrArg List.length each
  simp only [List.length_zipWith, List.length_map] at lengths
  simp only [inputTypes, inputCount, List.length_map] at counted ⊢
  omega

end ContractAbi
