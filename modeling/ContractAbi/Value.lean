import ContractAbi.AbiType
import ContractAbi.Address
import ContractAbi.Integer

/-!
# Typed values

Values as they are encoded. An integer keeps the width and a fixed byte string the size that it was
made for, and two values are equal only if those agree too.
-/

namespace ContractAbi

/-- A value of an encoded type. -/
inductive Value where
  | bool (value : Bool)
  | uint (number : Uint256) (bits : Nat)
  | int (number : Int256) (bits : Nat)
  | fixedBytes (word : Word) (size : Nat)
  | address (place : Address)
  | function (pointer : SizedBytes 24)
  | bytes (content : Bytes)
  | string (content : String)
  | array (items : List Value)
  | fixedArray (items : List Value)
  | tuple (items : List Value)

namespace Value

instance : Inhabited Value := ⟨.bool false⟩

/-- Induction over a value, in which a composite one may rest on each of its items. -/
@[induction_eliminator]
theorem inductionOn {motive : Value → Prop} (bool : ∀ value, motive (.bool value))
    (uint : ∀ number bits, motive (.uint number bits))
    (int : ∀ number bits, motive (.int number bits))
    (fixedBytes : ∀ word size, motive (.fixedBytes word size))
    (address : ∀ place, motive (.address place)) (function : ∀ pointer, motive (.function pointer))
    (bytes : ∀ content, motive (.bytes content)) (string : ∀ content, motive (.string content))
    (array : ∀ items, (∀ item ∈ items, motive item) → motive (.array items))
    (fixedArray : ∀ items, (∀ item ∈ items, motive item) → motive (.fixedArray items))
    (tuple : ∀ items, (∀ item ∈ items, motive item) → motive (.tuple items))
    (value : Value) : motive value :=
  @Value.rec motive (fun items => ∀ item ∈ items, motive item)
    bool uint int fixedBytes address function bytes string array fixedArray tuple
    (fun _ absent => absurd absent List.not_mem_nil)
    (fun _ _ first others => List.forall_mem_cons.2 ⟨first, others⟩) value

mutual
/-- Whether two values are equal. -/
def isEqual : (left right : Value) → Bool
  | .bool left, .bool right => left == right
  | .uint left leftBits, .uint right rightBits => left = right && leftBits == rightBits
  | .int left leftBits, .int right rightBits => left = right && leftBits == rightBits
  | .fixedBytes left leftSize, .fixedBytes right rightSize => left = right && leftSize == rightSize
  | .address left, .address right => left = right
  | .function left, .function right => left = right
  | .bytes left, .bytes right => left = right
  | .string left, .string right => left = right
  | .array left, .array right => areEqual left right
  | .fixedArray left, .fixedArray right => areEqual left right
  | .tuple left, .tuple right => areEqual left right
  | _, _ => false

/-- Whether two lists of values are equal. -/
def areEqual : (left right : List Value) → Bool
  | [], [] => true
  | left :: lefts, right :: rights => left.isEqual right && areEqual lefts rights
  | _, _ => false
end

mutual
theorem isEqual_iff : (left right : Value) → (left.isEqual right = true ↔ left = right)
  | .bool _, right => by cases right <;> simp [isEqual]
  | .uint _ _, right => by cases right <;> simp [isEqual]
  | .int _ _, right => by cases right <;> simp [isEqual]
  | .fixedBytes _ _, right => by cases right <;> simp [isEqual]
  | .address _, right => by cases right <;> simp [isEqual]
  | .function _, right => by cases right <;> simp [isEqual]
  | .bytes _, right => by cases right <;> simp [isEqual]
  | .string _, right => by cases right <;> simp [isEqual]
  | .array items, right => by cases right <;> simp [isEqual, areEqual_iff items]
  | .fixedArray items, right => by cases right <;> simp [isEqual, areEqual_iff items]
  | .tuple items, right => by cases right <;> simp [isEqual, areEqual_iff items]

theorem areEqual_iff : (left right : List Value) → (areEqual left right = true ↔ left = right)
  | [], right => by cases right <;> simp [areEqual]
  | left :: lefts, right => by
    cases right <;> simp [areEqual, isEqual_iff left, areEqual_iff lefts]
end

instance : DecidableEq Value := fun left right =>
  decidable_of_iff _ (isEqual_iff left right)

mutual
/-- Whether a value is encoded behind an offset. -/
def isDynamic : Value → Bool
  | .bytes _ | .string _ | .array _ => true
  | .fixedArray items | .tuple items => anyDynamic items
  | _ => false

/-- Whether one of the values is dynamic. -/
def anyDynamic : List Value → Bool
  | [] => false
  | value :: values => value.isDynamic || anyDynamic values
end

mutual
/-- A value has a type when it has the constructor of the type at every depth, the declared width,
size and lengths, numbers within their width, and nothing but zeros behind a fixed byte string. -/
def HasType : Value → AbiType → Prop
  | .bool _, .bool => True
  | .uint number bits, .uint width => bits = width.1 ∧ number.Fits bits
  | .int number bits, .int width => bits = width.1 ∧ number.Fits bits
  | .fixedBytes word size, .fixedBytes count =>
    size = count.1 ∧ ∀ byte ∈ word.1.drop size, byte = 0
  | .address _, .address => True
  | .function _, .function => True
  | .bytes _, .bytes => True
  | .string _, .string => True
  | .array items, .array element => AllHaveType items element
  | .fixedArray items, .fixedArray element length =>
    items.length = length.1 ∧ AllHaveType items element
  | .tuple items, .tuple members => HaveTypes items members
  | _, _ => False

/-- All the values have one type. -/
def AllHaveType : List Value → AbiType → Prop
  | [], _ => True
  | value :: values, type => value.HasType type ∧ AllHaveType values type

/-- The values have the types, one by one. -/
def HaveTypes : List Value → List AbiType → Prop
  | [], [] => True
  | value :: values, type :: types => value.HasType type ∧ HaveTypes values types
  | _, _ => False
end

end Value

end ContractAbi
