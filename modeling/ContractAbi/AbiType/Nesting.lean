import ContractAbi.AbiType

/-!
# Nesting of types

How deep a decoder has to go for a type, and which types hold an empty tuple somewhere.
-/

namespace ContractAbi.AbiType

mutual
/-- The number of decoders below one another that a value of the type needs: one for a byte string
or a text, one around the deepest member of a tuple or fixed array, and two around the elements of
a dynamic array. -/
def decoderDepth : AbiType → Nat
  | .bytes | .string => 1
  | .array element => 2 + element.decoderDepth
  | .fixedArray element _ => 1 + element.decoderDepth
  | .tuple members => 1 + deepest members
  | _ => 0

/-- The greatest decoder depth among the types. -/
def deepest : List AbiType → Nat
  | [] => 0
  | type :: types => max type.decoderDepth (deepest types)
end

mutual
/-- Whether an empty tuple stands somewhere in the type. -/
def hasEmptyTuple : AbiType → Bool
  | .array element | .fixedArray element _ => element.hasEmptyTuple
  | .tuple [] => true
  | .tuple (first :: others) => first.hasEmptyTuple || anyHasEmptyTuple others
  | _ => false

/-- Whether an empty tuple stands somewhere in one of the types. -/
def anyHasEmptyTuple : List AbiType → Bool
  | [] => false
  | type :: types => type.hasEmptyTuple || anyHasEmptyTuple types
end

mutual
/-- The greatest number of tuples that stand around one another in the type. -/
def tupleDepth : AbiType → Nat
  | .array element | .fixedArray element _ => element.tupleDepth
  | .tuple members => 1 + deepestTuples members
  | _ => 0

/-- The greatest tuple depth among the types. -/
def deepestTuples : List AbiType → Nat
  | [] => 0
  | type :: types => max type.tupleDepth (deepestTuples types)
end

example : decoderDepth (.array (.tuple [.bool, .string])) = 4 := rfl

end ContractAbi.AbiType
