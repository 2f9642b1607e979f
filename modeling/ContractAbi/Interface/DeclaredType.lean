import ContractAbi.Interface.Element

/-!
# Declared types

The type that a parameter declares, built from its components and its array sizes instead of being
read off its canonical type.
-/

namespace ContractAbi

namespace AbiType

/-- Up to `fuel` array sizes that a suffix spells from left to right, when it spells nothing
else. -/
def arraySizes? : (fuel : Nat) → List Char → Option (List (Option ArrayLength))
  | _, [] => some []
  | 0, _ => none
  | fuel + 1, suffix =>
    match TypeSyntax.readSize suffix with
    | none => none
    | some (size, rest) => (size :: ·) <$> arraySizes? fuel rest

/-- The array type with elements of a type and the given size. -/
def sized (element : AbiType) : Option ArrayLength → AbiType
  | none => .array element
  | some length => .fixedArray element length

/-- The array type with the given sizes, of which the first is the innermost. -/
def withSizes (element : AbiType) (sizes : List (Option ArrayLength)) : AbiType :=
  sizes.foldl sized element

end AbiType

namespace Param

mutual
/-- The type that a parameter declares: what its text stands for, or for a tuple its component types
in the array sizes behind the word `tuple`. -/
def declaredType? : Param → Option AbiType
  | ⟨_, type, components, _⟩ =>
    match tupleSuffix? type with
    | none => AbiType.parse? type
    | some suffix =>
      match AbiType.arraySizes? suffix.length suffix, declaredTypes? components with
      | some sizes, some members => some ((AbiType.tuple members).withSizes sizes)
      | _, _ => none

/-- The types that parameters declare. -/
def declaredTypes? : List Param → Option (List AbiType)
  | [] => some []
  | param :: params =>
    match param.declaredType?, declaredTypes? params with
    | some type, some types => some (type :: types)
    | _, _ => none
end

/-- A parameter is well-formed when it declares a type: at every depth its text is either the word
`tuple` with array sizes, or stands for a type by itself. -/
def WellFormed (param : Param) : Prop := param.declaredType?.isSome = true

end Param

/-- An element is well-formed when all of its inputs are. -/
def Element.WellFormed (element : Element) : Prop := ∀ input ∈ element.inputs, input.WellFormed

end ContractAbi
