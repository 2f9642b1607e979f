import ContractAbi.Log.DataFilter
import ContractAbi.Proofs.Call.Codec

/-!
# Normal values

Normalization turns byte strings into texts where a type demands texts. A value that has the type
has texts there already, so it is left as it is (`Value.normalize_of_hasType`), and so is everything
that an argument is coerced to.
-/

namespace ContractAbi

namespace Value

theorem map_normalize_of_allHaveType {element : AbiType}
    (each : ∀ {item : Value}, item.HasType element → normalize element item = item)
    {items : List Value} (typed : AllHaveType items element) :
    items.map (normalize element) = items := by
  have typedEach := allHaveType_iff_forall.1 typed
  have same : items.map (normalize element) = items.map id :=
    List.map_congr_left fun item member => each (typedEach item member)
  rw [same, List.map_id]

/-- A value of the type is normal already. -/
theorem normalize_of_hasType {type : AbiType} {value : Value} (typed : value.HasType type) :
    normalize type value = value := by
  induction type generalizing value with
  | array element inductionHypothesis =>
    cases value with
    | array items => rw [normalize, map_normalize_of_allHaveType inductionHypothesis typed]
    | _ => simp [HasType] at typed
  | fixedArray element length inductionHypothesis =>
    cases value with
    | fixedArray items => rw [normalize, map_normalize_of_allHaveType inductionHypothesis typed.2]
    | _ => simp [HasType] at typed
  | _ =>
    cases value <;> simp [HasType] at typed
    all_goals rfl

/-- What an argument is coerced to is normal already. -/
theorem normalizeText_of_coerceText {strict : Bool} {text : String} {argument : Argument}
    {value : Value} (coerced : Argument.coerceText strict text argument = some value) :
    normalizeText text value = value := by
  obtain ⟨type, parsed, typed⟩ := Argument.coerceText_eq_some_iff.1 coerced
  rw [normalizeText, AbiType.parse?_eq_some_iff.2 parsed]
  exact normalize_of_hasType (Argument.hasType_of_coerce typed)

/-- The same for all arguments at once. -/
theorem normalizeText_of_coerced {strict : Bool} {texts : List String}
    {arguments : List Argument} {values : List Value}
    (coerced : List.zipWith (Argument.coerceText strict) texts arguments = values.map some) :
    ∀ entry ∈ texts.zip values, normalizeText entry.1 entry.2 = entry.2 := by
  induction texts generalizing arguments values with
  | nil => simp
  | cons text texts inductionHypothesis =>
    cases arguments with
    | nil =>
      obtain rfl : values = [] := List.map_eq_nil_iff.1 coerced.symm
      simp
    | cons argument arguments =>
      cases values with
      | nil => simp at coerced
      | cons value values =>
        obtain ⟨first, others⟩ := List.cons.inj coerced
        exact List.forall_mem_cons.2
          ⟨normalizeText_of_coerceText first, inductionHypothesis others⟩

end Value

end ContractAbi
