/-!
# Types of encoded values

The types carry their own bounds: an integer width is a multiple of eight up to 256, a fixed byte
string has one to thirty-two bytes, and a fixed array has between one and `2 ^ 64 - 1` elements.
-/

namespace ContractAbi

/-- The number of bits of an integer type. -/
abbrev IntegerWidth := {bits : Nat // bits % 8 = 0 ∧ 0 < bits ∧ bits ≤ 256}

/-- The number of bytes of a fixed byte string. -/
abbrev ByteCount := {count : Nat // 0 < count ∧ count ≤ 32}

/-- The number of elements of a fixed array. -/
abbrev ArrayLength := {length : Nat // 0 < length ∧ length < 1 <<< 64}

/-- The type of an encoded value. -/
inductive AbiType where
  | bool
  | uint (width : IntegerWidth)
  | int (width : IntegerWidth)
  | fixedBytes (size : ByteCount)
  | address
  | function
  | bytes
  | string
  | array (element : AbiType)
  | fixedArray (element : AbiType) (length : ArrayLength)
  | tuple (members : List AbiType)
  deriving Repr, Inhabited

namespace AbiType

/-- Induction over a type, in which a tuple may rest on each of its members. -/
@[induction_eliminator]
theorem inductionOn {motive : AbiType → Prop} (bool : motive .bool)
    (uint : ∀ width, motive (.uint width)) (int : ∀ width, motive (.int width))
    (fixedBytes : ∀ size, motive (.fixedBytes size)) (address : motive .address)
    (function : motive .function) (bytes : motive .bytes) (string : motive .string)
    (array : ∀ element, motive element → motive (.array element))
    (fixedArray : ∀ element length, motive element → motive (.fixedArray element length))
    (tuple : ∀ members, (∀ member ∈ members, motive member) → motive (.tuple members))
    (type : AbiType) : motive type :=
  @AbiType.rec motive (fun members => ∀ member ∈ members, motive member)
    bool uint int fixedBytes address function bytes string array fixedArray tuple
    (fun _ absent => absurd absent List.not_mem_nil)
    (fun _ _ first others => List.forall_mem_cons.2 ⟨first, others⟩) type

mutual
/-- Whether values of the type are encoded behind an offset. -/
def isDynamic : AbiType → Bool
  | .bytes | .string | .array _ => true
  | .fixedArray element _ => element.isDynamic
  | .tuple members => anyDynamic members
  | _ => false

/-- Whether one of the types is dynamic. -/
def anyDynamic : List AbiType → Bool
  | [] => false
  | type :: types => type.isDynamic || anyDynamic types
end

mutual
/-- Whether the type is made of nothing but empty tuples, and arrays of them. -/
def isZeroSized : AbiType → Bool
  | .array element | .fixedArray element _ => element.isZeroSized
  | .tuple members => allZeroSized members
  | _ => false

/-- Whether all the types are zero-sized. -/
def allZeroSized : List AbiType → Bool
  | [] => true
  | type :: types => type.isZeroSized && allZeroSized types
end

mutual
/-- The least number of words in which a value of the type can stand. -/
def minimumWords : AbiType → Nat
  | .fixedArray element length => length.1 * element.minimumWords
  | .tuple members => sumMinimumWords members
  | _ => 1

/-- The least number of words in which a sequence of values can stand. -/
def sumMinimumWords : List AbiType → Nat
  | [] => 0
  | type :: types => type.minimumWords + sumMinimumWords types
end

theorem anyDynamic_eq_any (types : List AbiType) : anyDynamic types = types.any isDynamic := by
  induction types with
  | nil => rfl
  | cons type types inductionHypothesis => simp [anyDynamic, inductionHypothesis]

theorem allZeroSized_eq_all (types : List AbiType) :
    allZeroSized types = types.all isZeroSized := by
  induction types with
  | nil => rfl
  | cons type types inductionHypothesis => simp [allZeroSized, inductionHypothesis]

theorem sumMinimumWords_eq_foldr (types : List AbiType) :
    sumMinimumWords types = (types.map minimumWords).foldr (· + ·) 0 := by
  induction types with
  | nil => rfl
  | cons type types inductionHypothesis => simp [sumMinimumWords, inductionHypothesis]

end AbiType

end ContractAbi
