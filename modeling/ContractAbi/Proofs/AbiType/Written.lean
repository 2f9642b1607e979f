import ContractAbi.Proofs.Interface.DeclaredType

/-!
# Writing array types

Array sizes are written in brackets, the innermost first, with the digits of a length or with none.
What is written is read back as the same sizes (`TypeSyntax.sizes_write`), so every array of texts
has a text of its own that stands for it (`AbiType.parse_stringText`).
-/

namespace ContractAbi

namespace Text

/-- The decimal digits of a number spell it. -/
theorem decimal?_toDigits (number : Nat) : decimal? (Nat.toDigits 10 number) = some number := by
  have nonempty : Nat.toDigits 10 number ≠ [] := Nat.toDigits_ne_nil
  have areDigits : (Nat.toDigits 10 number).all Char.isDigit = true :=
    List.all_eq_true.2 fun _ member => Nat.isDigit_of_mem_toDigits (by decide) (by decide) member
  rw [decimal?, if_pos ⟨nonempty, areDigits⟩]
  exact congrArg some (Nat.ofDigitChars_eq_foldl.symm.trans Nat.ofDigitChars_ten_toDigits)

end Text

namespace TypeSyntax

/-- The digits that stand for an array size, none for that of a dynamic array. -/
def sizeDigits : Option ArrayLength → List Char
  | none => []
  | some length => Nat.toDigits 10 length.1

/-- Array sizes as they are written behind a type. -/
def writeSizes : List (Option ArrayLength) → List Char
  | [] => []
  | size :: sizes => '[' :: (sizeDigits size ++ ']' :: writeSizes sizes)

theorem isDigit_of_mem_sizeDigits {size : Option ArrayLength} :
    ∀ char ∈ sizeDigits size, char.isDigit = true := by
  intro char member
  cases size with
  | none => cases member
  | some length => exact Nat.isDigit_of_mem_toDigits (by decide) (by decide) member

theorem sizeOf?_sizeDigits (size : Option ArrayLength) :
    sizeOf? (sizeDigits size) = some size := by
  cases size with
  | none => rfl
  | some length =>
    have inRange : ArrayLength.ofNat? length.1 = some length := dif_pos length.2
    rw [sizeOf?, sizeDigits, if_neg Nat.toDigits_ne_nil, Text.decimal?_toDigits]
    simp [inRange]

/-- Written array sizes are read back, with nothing left behind them. -/
theorem sizes_write (sizes : List (Option ArrayLength)) : Sizes (writeSizes sizes) sizes [] := by
  induction sizes with
  | nil => exact .stop rfl
  | cons size sizes inductionHypothesis =>
    exact .next (readSize_digits isDigit_of_mem_sizeDigits (sizeOf?_sizeDigits size))
      inductionHypothesis

end TypeSyntax

namespace AbiType

open TypeSyntax (writeSizes)

/-- The text of an array of texts with the given sizes, of which the first is the innermost. -/
def stringText (sizes : List (Option ArrayLength)) : String :=
  "string" ++ String.ofList (writeSizes sizes)

/-- Sizes end the name in front of them. -/
theorem readRoot_string_writeSizes (sizes : List (Option ArrayLength)) :
    TypeSyntax.readRoot ("string".toList ++ writeSizes sizes) =
      some (.name "string", writeSizes sizes) := by
  cases sizes <;> rfl

/-- The text of an array of texts stands for it. -/
theorem parse_stringText (sizes : List (Option ArrayLength)) :
    parse (stringText sizes) = .ok (string.withSizes sizes) := by
  have written : (stringText sizes).toList = "string".toList ++ writeSizes sizes := by
    simp [stringText]
  have stem : TypeSyntax.readStem (TypeSyntax.readBelow TypeSyntax.maximumDepth)
      ("string".toList ++ writeSizes sizes) = some (.name "string", writeSizes sizes) :=
    (TypeSyntax.readStem_eq_some_iff (TypeSyntax.regular_readBelow _)).2
      (.inl ⟨rfl, readRoot_string_writeSizes sizes⟩)
  have read : TypeSyntax.read? (stringText sizes) =
      some (sizes.foldl TypeSyntax.sized (.name "string")) := by
    rw [TypeSyntax.read?, written, TypeSyntax.readType_eq,
      TypeSyntax.readTypeWith_eq_some_iff.2 ⟨_, _, _, stem, TypeSyntax.sizes_write sizes, rfl⟩]
  have named : (TypeSyntax.name "string").toType = .ok string := rfl
  rw [parse, read]
  exact TypeSyntax.toType_foldl_sized named sizes

example : stringText [some ⟨2, by decide⟩, none] = "string[2][]" := by decide

end AbiType

end ContractAbi
