import ContractAbi.AbiType.Nesting
import ContractAbi.Proofs.Call.Alignment
import Mathlib

/-!
# Array sizes from either end

A canonical type is read from left to right, so the last array size of a tuple becomes the outermost
array. Alignment takes the sizes off from the end. Both meet the same sizes around the same tuple
(`Param.parse_canonicalType_of_shallow`).
-/

namespace ContractAbi

namespace Alignment

/-- The text in front of the last bracketed group, and that group, when the text ends in one. -/
def splitLastGroup? (suffix : List Char) : Option (List Char × List Char) :=
  match suffix.reverse with
  | ']' :: rest =>
    match rest.dropWhile (· != '[') with
    | [] => none
    | _ :: front => some (front.reverse, '[' :: ((rest.takeWhile (· != '[')).reverse ++ [']']))
  | _ => none

/-- A suffix is taken apart from its end into array sizes, of which the outermost comes first, down
to a text that ends in no bracketed group. -/
inductive Peels : (suffix : List Char) → List (Option ArrayLength) → Prop where
  | stop {suffix : List Char} (ended : splitLastGroup? suffix = none) : Peels suffix []
  | size {suffix front group : List Char} {size : Option ArrayLength}
    {sizes : List (Option ArrayLength)} (ends : splitLastGroup? suffix = some (front, group))
    (reads : TypeSyntax.readSize group = some (size, [])) (others : Peels front sizes) :
    Peels suffix (size :: sizes)

theorem splitLastGroup?_append (front : List Char) {digits : List Char} (free : '[' ∉ digits) :
    splitLastGroup? (front ++ '[' :: (digits ++ [']'])) =
      some (front, '[' :: (digits ++ [']'])) := by
  have inside : ∀ char ∈ digits.reverse, (char != '[') = true := by
    intro char member
    exact bne_iff_ne.2 fun same => free (List.mem_reverse.1 (same ▸ member))
  have reversed : (front ++ '[' :: (digits ++ [']'])).reverse =
      ']' :: (digits.reverse ++ '[' :: front.reverse) := by simp
  rw [splitLastGroup?, reversed]
  simp only [List.dropWhile_append_of_pos inside, List.takeWhile_append_of_pos inside]
  simp

/-- A group that is never opened does not count. -/
theorem bracketGroups_of_unopened {rest : List Char}
    (unopened : rest.dropWhile (· != '[') = []) : bracketGroups true rest = 0 := by
  induction rest with
  | nil => rfl
  | cons char rest inductionHypothesis =>
    by_cases opens : char = '['
    · simp [opens] at unopened
    · rw [List.dropWhile_cons_of_pos (by simpa using opens)] at unopened
      rw [bracketGroups, if_neg opens, inductionHypothesis unopened]

theorem bracketGroups_of_opened {rest front : List Char} {opening : Char}
    (opened : rest.dropWhile (· != '[') = opening :: front) :
    bracketGroups true rest = bracketGroups false front + 1 := by
  induction rest with
  | nil => cases opened
  | cons char rest inductionHypothesis =>
    by_cases opens : char = '['
    · rw [List.dropWhile_cons_of_neg (by simpa using opens)] at opened
      obtain ⟨-, rfl⟩ := List.cons.inj opened
      rw [bracketGroups, if_pos opens]
    · rw [List.dropWhile_cons_of_pos (by simpa using opens)] at opened
      rw [bracketGroups, if_neg opens, inductionHypothesis opened]

/-- Every group that can be split off is one level more, whatever stands in it. -/
theorem arrayLevels_eq (suffix : List Char) :
    arrayLevels suffix =
      (splitLastGroup? suffix).elim 0 fun split => arrayLevels split.1 + 1 := by
  unfold splitLastGroup? arrayLevels
  cases suffix.reverse with
  | nil => rfl
  | cons char rest =>
    by_cases closes : char = ']'
    · subst closes
      rw [bracketGroups, if_pos rfl]
      cases opened : rest.dropWhile (· != '[') with
      | nil => simp [opened, bracketGroups_of_unopened opened]
      | cons opening front => simp [opened, bracketGroups_of_opened opened]
    · simp [bracketGroups, closes]

theorem Peels.arrayLevels_eq {suffix : List Char} {sizes : List (Option ArrayLength)}
    (peels : Peels suffix sizes) : arrayLevels suffix = sizes.length := by
  induction peels with
  | stop ended =>
    rw [Alignment.arrayLevels_eq, ended]
    rfl
  | size ends _ _ inductionHypothesis =>
    rw [Alignment.arrayLevels_eq, ends, List.length_cons, ← inductionHypothesis]
    rfl

/-- Array sizes that are read behind a peeled suffix are peeled before it, the last one first. -/
theorem Peels.append_sizes {suffix front : List Char} {sizes inner : List (Option ArrayLength)}
    (peels : Peels front inner) (read : TypeSyntax.Sizes suffix sizes []) :
    Peels (front ++ suffix) (sizes.reverse ++ inner) := by
  generalize nothing : ([] : List Char) = rest at read
  induction read generalizing front inner with
  | stop =>
    subst nothing
    simpa using peels
  | @next text size after sizes rest reads _ inductionHypothesis =>
    obtain ⟨digits, areDigits, spelled, rfl⟩ := TypeSyntax.readSize_eq_some_iff.1 reads
    have free : '[' ∉ digits := fun member => absurd (areDigits _ member) (by decide)
    have sizeRead : TypeSyntax.readSize ('[' :: (digits ++ [']'])) = some (size, []) :=
      TypeSyntax.readSize_digits areDigits spelled
    have further : Peels (front ++ '[' :: (digits ++ [']'])) (size :: inner) :=
      .size (splitLastGroup?_append front free) sizeRead peels
    simpa using inductionHypothesis further nothing

end Alignment

namespace AbiType

/-- The array sizes around a type, of which the outermost comes first, and the type within. -/
def dimensions : AbiType → List (Option ArrayLength) × AbiType
  | .array element => (none :: element.dimensions.1, element.dimensions.2)
  | .fixedArray element length => (some length :: element.dimensions.1, element.dimensions.2)
  | type => ([], type)

theorem dimensions_withSizes (sizes : List (Option ArrayLength)) (base : AbiType) :
    (base.withSizes sizes).dimensions =
      (sizes.reverse ++ base.dimensions.1, base.dimensions.2) := by
  induction sizes generalizing base with
  | nil => rfl
  | cons size sizes inductionHypothesis =>
    rw [withSizes, List.foldl_cons]
    refine (inductionHypothesis (base.sized size)).trans ?_
    cases size <;> simp [sized, dimensions]

theorem tupleDepth_withSizes (sizes : List (Option ArrayLength)) (base : AbiType) :
    (base.withSizes sizes).tupleDepth = base.tupleDepth := by
  induction sizes generalizing base with
  | nil => rfl
  | cons size sizes inductionHypothesis =>
    rw [withSizes, List.foldl_cons]
    refine (inductionHypothesis (base.sized size)).trans ?_
    cases size <;> rfl

theorem tupleDepth_le_deepestTuples {type : AbiType} {types : List AbiType}
    (member : type ∈ types) : type.tupleDepth ≤ deepestTuples types := by
  induction types with
  | nil => cases member
  | cons first others inductionHypothesis =>
    rw [deepestTuples]
    rcases List.mem_cons.1 member with rfl | isOther
    · exact Nat.le_max_left _ _
    · exact Nat.le_trans (inductionHypothesis isOther) (Nat.le_max_right _ _)

end AbiType

mutual
/-- No name stands in more tuples than the type has around one another. -/
theorem TypeSyntax.nameDepth_le_tupleDepth : (shape : TypeSyntax) → {type : AbiType} →
    shape.toType = .ok type → shape.nameDepth ≤ type.tupleDepth
  | .name _, _, _ => Nat.zero_le _
  | .qualified, _, _ => Nat.zero_le _
  | .tuple members, _, typed => by
    obtain ⟨types, membersTyped, isTuple⟩ := Outcome.bind_eq_ok.1 typed
    obtain rfl := Except.ok.inj isTuple
    exact deepestNames_le_deepestTuples members membersTyped
  | .array element, _, typed => by
    obtain ⟨type, elementTyped, isArray⟩ := Outcome.bind_eq_ok.1 typed
    obtain rfl := Except.ok.inj isArray
    rw [nameDepth, AbiType.tupleDepth]
    exact nameDepth_le_tupleDepth element elementTyped
  | .fixedArray element _, _, typed => by
    obtain ⟨type, elementTyped, isArray⟩ := Outcome.bind_eq_ok.1 typed
    obtain rfl := Except.ok.inj isArray
    rw [nameDepth, AbiType.tupleDepth]
    exact nameDepth_le_tupleDepth element elementTyped

theorem TypeSyntax.deepestNames_le_deepestTuples : (shapes : List TypeSyntax) →
    {types : List AbiType} → TypeSyntax.toTypes shapes = .ok types →
      deepestNames shapes ≤ 1 + AbiType.deepestTuples types
  | [], _, _ => Nat.zero_le _
  | shape :: shapes, _, typed => by
    obtain ⟨type, shapeTyped, rest⟩ := Outcome.bind_eq_ok.1 typed
    obtain ⟨types, shapesTyped, isCons⟩ := Outcome.bind_eq_ok.1 rest
    obtain rfl := Except.ok.inj isCons
    have first := nameDepth_le_tupleDepth shape shapeTyped
    have others := deepestNames_le_deepestTuples shapes shapesTyped
    rw [deepestNames, AbiType.deepestTuples]
    omega
end

namespace Param

open ContractAbi.Alignment (Peels)

/-- The canonical type of a parameter is read as the declared type when no more than 79 tuples stand
around one another in it. -/
theorem parse_canonicalType {param : Param} {type : AbiType}
    (declared : param.declaredType? = some type) (shallow : type.tupleDepth ≤ 79) :
    AbiType.parse param.canonicalType = .ok type := by
  obtain ⟨shape, typed, reads⟩ := exists_readsAnywhere_canonicalType declared
  have room : shape.nameDepth ≤ TypeSyntax.maximumDepth :=
    Nat.le_trans (TypeSyntax.nameDepth_le_tupleDepth shape typed) shallow
  have read := reads TypeSyntax.maximumDepth room TypeSyntax.closing_nil
  rw [List.append_nil] at read
  rw [AbiType.parse, TypeSyntax.read?, read]
  exact typed

/-- Components that declare types are read as these types. -/
theorem forall₂_parse_canonicalType {components : List Param} {members : List AbiType}
    (declared : declaredTypes? components = some members)
    (shallow : ∀ member ∈ members, member.tupleDepth ≤ 79) :
    List.Forall₂ (fun component member => AbiType.parse component.canonicalType = .ok member)
      components members := by
  induction components generalizing members with
  | nil =>
    obtain rfl := Option.some.inj declared
    exact .nil
  | cons component components inductionHypothesis =>
    obtain ⟨member, others, rfl, first, rest⟩ := declaredTypes?_cons_eq_some_iff.1 declared
    obtain ⟨firstShallow, othersShallow⟩ := List.forall_mem_cons.1 shallow
    exact .cons (parse_canonicalType first firstShallow) (inductionHypothesis rest othersShallow)

/-- The canonical type of a parameter is read as the declared type. For a tuple, the sizes that
alignment takes from the end of the text are those that the type has around it, the outermost one
first, and there is one member for each component, of the type that the component is read as. -/
theorem parse_canonicalType_of_shallow {param : Param} {type : AbiType}
    (declared : param.declaredType? = some type) (shallow : type.tupleDepth ≤ 79) :
    AbiType.parse param.canonicalType = .ok type ∧
    ∀ suffix, tupleSuffix? param.type = some suffix →
      ∃ sizes members, Peels suffix sizes ∧ Alignment.arrayLevels suffix = sizes.length ∧
        type = (AbiType.tuple members).withSizes sizes.reverse ∧
        type.dimensions = (sizes, .tuple members) ∧
        List.Forall₂ (fun component member => AbiType.parse component.canonicalType = .ok member)
          param.components members := by
  refine ⟨parse_canonicalType declared shallow, ?_⟩
  intro suffix tuple
  obtain ⟨name, text, components, internalType⟩ := param
  simp only at tuple ⊢
  simp only [declaredType?, tuple] at declared
  split at declared
  · next applied members spelled membersDeclared =>
    obtain rfl := Option.some.inj declared
    rw [AbiType.tupleDepth_withSizes, AbiType.tupleDepth] at shallow
    have nothing : Peels [] [] := .stop rfl
    have peels : Peels suffix applied.reverse := by
      simpa using nothing.append_sizes (AbiType.sizes_of_arraySizes? spelled)
    refine ⟨applied.reverse, members, peels, peels.arrayLevels_eq, by rw [List.reverse_reverse],
      by simp [AbiType.dimensions_withSizes, AbiType.dimensions], ?_⟩
    apply forall₂_parse_canonicalType membersDeclared
    intro member isMember
    have below := AbiType.tupleDepth_le_deepestTuples isMember
    omega
  · cases declared

/-- The last of two sizes is outermost, and tuples in a text of a component's own count as well. -/
theorem parse_canonicalType_of_shallow_of_nested :
    let components : List Param := [⟨"x", "(string,bytes3)[]", [], none⟩, ⟨"y", "tuple", [], none⟩]
    let tuple : AbiType :=
      .tuple [.array (.tuple [.string, .fixedBytes ⟨3, by decide⟩]), .tuple []]
    let type : AbiType := .array (.fixedArray tuple ⟨2, by decide⟩)
    let param : Param := ⟨"a", "tuple[2][]", components, none⟩
    param.declaredType? = some type ∧ type.tupleDepth = 2 ∧
      param.canonicalType = "((string,bytes3)[],())[2][]" ∧
      AbiType.parse "((string,bytes3)[],())[2][]" = .ok type ∧
      Peels "[2][]".toList [none, some ⟨2, by decide⟩] := by
  intro components tuple type param
  have declared : param.declaredType? = some type := by cbv
  have written : param.canonicalType = "((string,bytes3)[],())[2][]" := by cbv
  obtain ⟨parsed, peeled⟩ := parse_canonicalType_of_shallow declared (by decide)
  have suffix : tupleSuffix? param.type = some "[2][]".toList := by cbv
  obtain ⟨sizes, members, peels, -, -, dimensions, -⟩ := peeled "[2][]".toList suffix
  obtain ⟨rfl, -⟩ := Prod.mk.inj dimensions
  exact ⟨declared, rfl, written, written ▸ parsed, peels⟩

end Param

end ContractAbi
