import ContractAbi.Interface.DeclaredType
import ContractAbi.Proofs.AbiType.Placement
import ContractAbi.Proofs.Outcome

/-!
# Canonical types of declared parameters

The canonical type of a parameter is read as the type that its components and array sizes build up
(`Param.exists_readsAnywhere_canonicalType`), so it stands for no other type
(`Param.parse_canonicalType_unique`).
-/

namespace ContractAbi

open TypeSyntax (Closing ReadsAs Sizes readType)

namespace AbiType

/-- A suffix that spells array sizes spells them one after the other, and nothing else. -/
theorem sizes_of_arraySizes? {fuel : Nat} {suffix : List Char}
    {sizes : List (Option ArrayLength)} (spelled : arraySizes? fuel suffix = some sizes) :
    Sizes suffix sizes [] := by
  induction fuel generalizing suffix sizes with
  | zero =>
    cases suffix with
    | nil =>
      obtain rfl := Option.some.inj spelled
      exact .stop rfl
    | cons => cases spelled
  | succ fuel inductionHypothesis =>
    cases suffix with
    | nil =>
      obtain rfl := Option.some.inj spelled
      exact .stop rfl
    | cons char suffix =>
      simp only [arraySizes?] at spelled
      split at spelled
      · cases spelled
      · next size rest read =>
        obtain ⟨others, spelledOthers, rfl⟩ := Option.map_eq_some_iff.1 spelled
        exact .next read (inductionHypothesis spelledOthers)

end AbiType

namespace TypeSyntax

/-- Array sizes around a shape are array sizes around its type. -/
theorem toType_foldl_sized {stem : TypeSyntax} {type : AbiType} (typed : stem.toType = .ok type)
    (sizes : List (Option ArrayLength)) :
    (sizes.foldl sized stem).toType = .ok (type.withSizes sizes) := by
  induction sizes generalizing stem type with
  | nil => exact typed
  | cons size sizes inductionHypothesis =>
    apply inductionHypothesis
    cases size <;> simp [sized, AbiType.sized, toType, typed]

/-- A text that stands for a type is read as a shape of that type. -/
theorem exists_read_of_parse {text : String} {type : AbiType}
    (parsed : AbiType.parse text = .ok type) :
    ∃ shape : TypeSyntax, shape.toType = .ok type ∧
      readType maximumDepth text.toList = some (shape, []) := by
  unfold AbiType.parse at parsed
  split at parsed
  · cases parsed
  · next shape read =>
    unfold read? at read
    split at read
    · next found =>
      obtain rfl := Option.some.inj read
      exact ⟨_, parsed, found⟩
    · cases read

/-- A text is read as a shape wherever there is room for its tuples. -/
def ReadsAnywhere (text : List Char) (shape : TypeSyntax) : Prop :=
  ∀ depth, shape.nameDepth ≤ depth → ReadsAs (readType depth) text shape

theorem forall₂_readBelow {depth : Nat} {texts : List (List Char)} {shapes : List TypeSyntax}
    (each : List.Forall₂ ReadsAnywhere texts shapes)
    (shallow : ∀ shape ∈ shapes, shape.nameDepth < depth) :
    List.Forall₂ (ReadsAs (readBelow depth)) texts shapes := by
  induction each with
  | nil => exact .nil
  | cons first _ inductionHypothesis =>
    obtain ⟨firstShallow, othersShallow⟩ := List.forall_mem_cons.1 shallow
    refine .cons ?_ (inductionHypothesis othersShallow)
    cases depth with
    | zero => omega
    | succ depth => exact first depth (Nat.le_of_lt_succ firstShallow)

/-- Texts between commas in parentheses, with array sizes behind, are read as the array of their
tuple. -/
theorem readsAnywhere_tuple {texts : List (List Char)} {shapes : List TypeSyntax}
    (each : List.Forall₂ ReadsAnywhere texts shapes) {suffix : List Char}
    {sizes : List (Option ArrayLength)} (spelled : Sizes suffix sizes []) :
    ReadsAnywhere ('(' :: ([','].intercalate texts ++ ')' :: suffix))
      (sizes.foldl sized (tuple shapes)) := by
  intro depth enough more closing
  rw [nameDepth_foldl_sized] at enough
  have members := members_intercalate (regular_readBelow depth)
    (forall₂_readBelow each (deepestNames_le_iff.1 enough)) (suffix ++ more)
  rw [readType_eq, readTypeWith_eq_some_iff]
  refine ⟨.tuple shapes, suffix ++ more, sizes, ?_, spelled.append closing, rfl⟩
  rw [readStem_eq_some_iff (regular_readBelow depth)]
  right
  exact ⟨_, shapes, rfl, by simpa using members, rfl⟩

end TypeSyntax

namespace Param

open TypeSyntax (ReadsAnywhere)

/-- Parameters declare types when the first one declares the first type and so on. -/
theorem declaredTypes?_cons_eq_some_iff {param : Param} {params : List Param}
    {types : List AbiType} :
    declaredTypes? (param :: params) = some types ↔
      ∃ type others, types = type :: others ∧ param.declaredType? = some type ∧
        declaredTypes? params = some others := by
  rw [declaredTypes?]
  cases param.declaredType? with
  | none => simp
  | some type => cases declaredTypes? params <;> simp [eq_comm]

/-- Components that are read as their declared types have the shapes of these types. -/
theorem exists_shapes {components : List Param} {types : List AbiType}
    (declared : declaredTypes? components = some types)
    (each : ∀ component ∈ components, ∀ {type}, component.declaredType? = some type →
      ∃ shape : TypeSyntax, shape.toType = .ok type ∧
        ReadsAnywhere component.canonicalType.toList shape) :
    ∃ shapes, TypeSyntax.toTypes shapes = .ok types ∧
      List.Forall₂ ReadsAnywhere ((canonicalTypes components).map String.toList) shapes := by
  induction components generalizing types with
  | nil =>
    obtain rfl := Option.some.inj declared
    exact ⟨[], rfl, .nil⟩
  | cons component components inductionHypothesis =>
    obtain ⟨type, others, rfl, first, rest⟩ := declaredTypes?_cons_eq_some_iff.1 declared
    obtain ⟨eachFirst, eachOther⟩ := List.forall_mem_cons.1 each
    obtain ⟨shape, typed, reads⟩ := eachFirst first
    obtain ⟨shapes, othersTyped, othersRead⟩ := inductionHypothesis rest eachOther
    exact ⟨shape :: shapes, by simp [TypeSyntax.toTypes, typed, othersTyped],
      .cons reads othersRead⟩

/-- The canonical type of a parameter is read as the type that the parameter declares, wherever
there is room for its tuples. -/
theorem exists_readsAnywhere_canonicalType {param : Param} {type : AbiType}
    (declared : param.declaredType? = some type) :
    ∃ shape : TypeSyntax, shape.toType = .ok type ∧
      ReadsAnywhere param.canonicalType.toList shape := by
  induction param generalizing type with
  | mk name text components internalType inductionHypothesis =>
    simp only [declaredType?] at declared
    split at declared
    · next plain =>
      have parsed := AbiType.parse?_eq_some_iff.1 declared
      obtain ⟨shape, typed, read⟩ := TypeSyntax.exists_read_of_parse parsed
      refine ⟨shape, typed, ?_⟩
      intro depth enough more closing
      simpa [canonicalType, plain] using TypeSyntax.readType_append read enough closing
    · next suffix tuple =>
      split at declared
      · next sizes members spelled membersDeclared =>
        obtain rfl := Option.some.inj declared
        obtain ⟨shapes, typed, each⟩ := exists_shapes membersDeclared inductionHypothesis
        have tupleTyped : (TypeSyntax.tuple shapes).toType = .ok (.tuple members) := by
          simp [TypeSyntax.toType, typed]
        have written : (canonicalType ⟨name, text, components, internalType⟩).toList =
            '(' :: ([','].intercalate ((canonicalTypes components).map String.toList) ++
              ')' :: suffix) := by
          simp [canonicalType, tuple, String.toList_append, String.toList_intercalate]
        refine ⟨_, TypeSyntax.toType_foldl_sized tupleTyped sizes, ?_⟩
        rw [written]
        exact TypeSyntax.readsAnywhere_tuple each (AbiType.sizes_of_arraySizes? spelled)
      · cases declared

/-- The canonical type of a parameter stands for no type but the declared one. -/
theorem parse_canonicalType_unique {param : Param} {type parsedType : AbiType}
    (declared : param.declaredType? = some type)
    (parsed : AbiType.parse param.canonicalType = .ok parsedType) : parsedType = type := by
  obtain ⟨shape, typed, reads⟩ := exists_readsAnywhere_canonicalType declared
  obtain ⟨other, otherTyped, readOther⟩ := TypeSyntax.exists_read_of_parse parsed
  have read := reads shape.nameDepth (Nat.le_refl _) TypeSyntax.closing_nil
  rw [List.append_nil] at read
  obtain ⟨rfl, -⟩ := TypeSyntax.readType_unique read readOther
  exact Except.ok.inj (otherTyped.symm.trans typed)

end Param

end ContractAbi
