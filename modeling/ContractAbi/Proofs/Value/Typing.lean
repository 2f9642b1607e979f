import ContractAbi.Proofs.Value.Layout
import Mathlib.Data.List.Forall2

/-!
# Typed values

What the type of a value says about its encoding: whether it stands behind an offset, and how many
words it takes at least. An array is treated as the sequence of its items, all of one type.
-/

namespace ContractAbi

namespace AbiType

/-- Equally many items of one type take as many words as they count. -/
theorem sumMinimumWords_replicate (count : Nat) (element : AbiType) :
    sumMinimumWords (List.replicate count element) = count * element.minimumWords := by
  induction count with
  | zero => simp [sumMinimumWords]
  | succ count inductionHypothesis =>
    rw [List.replicate_succ, sumMinimumWords, inductionHypothesis, Nat.succ_mul, Nat.add_comm]

theorem anyDynamic_replicate {count : Nat} (some : 0 < count) (element : AbiType) :
    anyDynamic (List.replicate count element) = element.isDynamic := by
  rw [anyDynamic_eq_any, Bool.eq_iff_iff]
  simp [List.any_replicate, Nat.pos_iff_ne_zero.1 some]

end AbiType

namespace Value

/-- Items of one type are a sequence of that type, repeated. -/
theorem allHaveType_iff_haveTypes {items : List Value} {element : AbiType} :
    AllHaveType items element ↔ HaveTypes items (List.replicate items.length element) := by
  induction items with
  | nil => simp [AllHaveType, HaveTypes]
  | cons item items inductionHypothesis =>
    simp [AllHaveType, HaveTypes, List.replicate_succ, inductionHypothesis]

theorem allHaveType_iff_forall {items : List Value} {element : AbiType} :
    AllHaveType items element ↔ ∀ item ∈ items, item.HasType element := by
  induction items with
  | nil => simp [AllHaveType]
  | cons item items inductionHypothesis => simp [AllHaveType, inductionHypothesis]

/-- What follows for each value from its type follows for a sequence from its types. -/
theorem HaveTypes.forall₂_of_each {property : Value → AbiType → Prop} {values : List Value}
    {types : List AbiType} (typed : HaveTypes values types)
    (each : ∀ type ∈ types, ∀ value, HasType value type → property value type) :
    List.Forall₂ property values types := by
  induction types generalizing values with
  | nil => cases values with
    | nil => exact .nil
    | cons value values => simp [HaveTypes] at typed
  | cons type types inductionHypothesis =>
    cases values with
    | nil => simp [HaveTypes] at typed
    | cons value values =>
      obtain ⟨first, others⟩ := List.forall_mem_cons.1 each
      exact .cons (first value typed.1) (inductionHypothesis typed.2 others)

/-- The same for the items of an array, which all rest on the type of an element. -/
theorem AllHaveType.forall₂_of_element {property : Value → AbiType → Prop} {items : List Value}
    {element : AbiType} (typed : AllHaveType items element)
    (each : ∀ value, HasType value element → property value element) :
    List.Forall₂ property items (List.replicate items.length element) := by
  refine (allHaveType_iff_haveTypes.1 typed).forall₂_of_each ?_
  intro type member
  rw [List.eq_of_mem_replicate member]
  exact each

theorem anyDynamic_eq_of_forall₂ {values : List Value} {types : List AbiType}
    (same : List.Forall₂ (fun value type => isDynamic value = type.isDynamic) values types) :
    anyDynamic values = AbiType.anyDynamic types := by
  induction same with
  | nil => rfl
  | cons first _ inductionHypothesis =>
    simp [anyDynamic, AbiType.anyDynamic, first, inductionHypothesis]

/-- The type of a value says whether it stands behind an offset. -/
theorem isDynamic_eq_of_hasType {value : Value} {type : AbiType} (typed : value.HasType type) :
    value.isDynamic = type.isDynamic := by
  induction type generalizing value with
  | fixedArray element length inductionHypothesis =>
    cases value with
    | fixedArray items =>
      obtain ⟨count, itemsTyped⟩ := typed
      have positive : 0 < items.length := count ▸ length.2.1
      have same := anyDynamic_eq_of_forall₂
        (itemsTyped.forall₂_of_element fun _ => inductionHypothesis)
      rw [isDynamic, AbiType.isDynamic, same, AbiType.anyDynamic_replicate positive]
    | _ => simp [HasType] at typed
  | tuple members inductionHypothesis =>
    cases value with
    | tuple items =>
      exact anyDynamic_eq_of_forall₂
        (HaveTypes.forall₂_of_each typed fun member isMember _ =>
          inductionHypothesis member isMember)
    | _ => simp [HasType] at typed
  | _ =>
    cases value <;> simp [HasType] at typed
    rfl

theorem minimumWords_le_of_forall₂ {values : List Value} {types : List AbiType}
    (least : List.Forall₂ (fun value type => 32 * type.minimumWords ≤ value.encode.length)
      values types) :
    32 * AbiType.sumMinimumWords types ≤ (Part.layout (parts values)).length := by
  have bodies : 32 * AbiType.sumMinimumWords types ≤
      ((parts values).map fun part => part.body.length).foldr (· + ·) 0 := by
    induction least with
    | nil => simp [AbiType.sumMinimumWords]
    | cons first _ inductionHypothesis =>
      simp only [AbiType.sumMinimumWords, parts, List.map_cons, List.foldr_cons]
      omega
  exact Nat.le_trans bodies (Part.sum_length_body_le _)

/-- A value takes at least as many words as its type demands. -/
theorem minimumWords_le {value : Value} {type : AbiType} (typed : value.HasType type) :
    32 * type.minimumWords ≤ value.encode.length := by
  induction type generalizing value with
  | fixedArray element length inductionHypothesis =>
    cases value with
    | fixedArray items =>
      obtain ⟨count, itemsTyped⟩ := typed
      have least := minimumWords_le_of_forall₂
        (itemsTyped.forall₂_of_element fun _ => inductionHypothesis)
      rw [AbiType.sumMinimumWords_replicate, count] at least
      simpa only [encode, AbiType.minimumWords] using least
    | _ => simp [HasType] at typed
  | tuple members inductionHypothesis =>
    cases value with
    | tuple items =>
      simpa only [encode, AbiType.minimumWords] using minimumWords_le_of_forall₂
        (HaveTypes.forall₂_of_each typed fun member isMember _ =>
          inductionHypothesis member isMember)
    | _ => simp [HasType] at typed
  | _ =>
    cases value <;> simp [HasType] at typed
    simp [encode, encodeBytes, AbiType.minimumWords]

end Value

end ContractAbi
