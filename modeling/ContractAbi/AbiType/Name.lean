import ContractAbi.AbiType
import ContractAbi.Text.Digits

/-!
# Names of elementary types

The names that stand for a type without components, and the faults of all other names.
-/

namespace ContractAbi

/-- Why a text does not name a type. -/
inductive TypeFault where
  /-- The text does not follow the grammar of types. -/
  | ungrammatical
  /-- The name belongs to no family of types. -/
  | unknownName (name : String)
  /-- The name belongs to a family of types but has no size of that family. -/
  | invalidSize (name : String)
  deriving DecidableEq, Repr

/-- The wording of a fault; a text outside the grammar is not explained further. -/
def TypeFault.message? : TypeFault → Option String
  | .ungrammatical => none
  | .unknownName name => some ("invalid type string: " ++ name)
  | .invalidSize name => some ("invalid size for type: " ++ name)

/-- The number as the width of an integer. -/
def IntegerWidth.ofNat? (bits : Nat) : Option IntegerWidth :=
  if valid : bits % 8 = 0 ∧ 0 < bits ∧ bits ≤ 256 then some ⟨bits, valid⟩ else none

/-- The number as the size of a fixed byte string. -/
def ByteCount.ofNat? (count : Nat) : Option ByteCount :=
  if valid : 0 < count ∧ count ≤ 32 then some ⟨count, valid⟩ else none

/-- The number as the length of a fixed array. -/
def ArrayLength.ofNat? (length : Nat) : Option ArrayLength :=
  if valid : 0 < length ∧ length < 1 <<< 64 then some ⟨length, valid⟩ else none

namespace AbiType

/-- The types that a name stands for without a size. -/
def plainNames : List (String × AbiType) := [
  ("address", .address),
  ("function", .function),
  ("bool", .bool),
  ("string", .string),
  ("bytes", .bytes),
  ("uint", .uint ⟨256, by decide⟩),
  ("int", .int ⟨256, by decide⟩)]

/-- The families whose names end in a size, and which sizes each of them has. -/
def sizedFamilies : List (String × (Nat → Option AbiType)) := [
  ("bytes", fun size => (ByteCount.ofNat? size).map .fixedBytes),
  ("uint", fun size => (IntegerWidth.ofNat? size).map .uint),
  ("int", fun size => (IntegerWidth.ofNat? size).map .int)]

/-- What the first matching family makes of a name: nothing without a family, and no type when the
rest of the name is no size of the family. -/
def ofFamily? (name : String) : Option (Option AbiType) :=
  sizedFamilies.findSome? fun (family, sized) =>
    (family.toList.isPrefixOf? name.toList).map fun size => (Text.decimal? size).bind sized

/-- The elementary type of a name. -/
def ofName (name : String) : Except TypeFault AbiType :=
  match plainNames.lookup name with
  | some type => .ok type
  | none =>
    match ofFamily? name with
    | some (some type) => .ok type
    | some none => .error (.invalidSize name)
    | none => .error (.unknownName name)

example : ofName "uint08" = .ok (.uint ⟨8, by decide⟩) := by rfl

example : ofName "uint7" = .error (.invalidSize "uint7") ∧
    ofName "byte" = .error (.unknownName "byte") := by
  constructor <;> rfl

end AbiType

end ContractAbi
