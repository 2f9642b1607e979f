import ContractAbi.Call.Codec

/-!
# Signatures and their hashes

Tuples are written in two ways: a signature follows the word `tuple` in the type texts, a signature
hash follows the components. Both come to one text when the two agree at every depth
(`Param.hashedType_eq_canonicalType`), so the selector is that of the signature.
-/

namespace ContractAbi

namespace Param

/-- A parameter is coherent when its type text starts with the word `tuple` exactly if it has
components, at every depth. -/
inductive Coherent : Param → Prop where
  | mk {name type : String} {components : List Param} {internalType : Option InternalType}
    (agrees : (tupleSuffix? type).isSome = true ↔ components ≠ [])
    (below : ∀ component ∈ components, Coherent component) :
    Coherent ⟨name, type, components, internalType⟩

/-- A coherent parameter is hashed under its canonical type. -/
theorem hashedType_eq_canonicalType {param : Param} (coherent : param.Coherent) :
    param.hashedType = param.canonicalType := by
  induction param with
  | mk name type components internalType inductionHypothesis =>
    obtain ⟨agrees, below⟩ := coherent
    cases components with
    | nil =>
      have plain : tupleSuffix? type = none := by simpa using agrees
      simp only [hashedType, canonicalType, plain]
    | cons first others =>
      obtain ⟨suffix, tuple⟩ := Option.isSome_iff_exists.1 (agrees.2 (List.cons_ne_nil _ _))
      have same : (first :: others).map hashedType = (first :: others).map canonicalType :=
        List.map_congr_left fun component member =>
          inductionHypothesis component member (below component member)
      rw [hashedType, canonicalType, tuple, canonicalTypes_eq_map, ← same, hashedTypes_eq_map]
      rfl

/-- Without components the word `tuple` is hashed as it stands, but written as an empty tuple. -/
example : hashedType ⟨"", "tuple[]", [], none⟩ = "tuple[]" ∧
    canonicalType ⟨"", "tuple[]", [], none⟩ = "()[]" := by decide

end Param

namespace Element

/-- The hash of an element's name and inputs is the hash of its signature. -/
theorem signatureHash_eq_hash_signature {element : Element} {name : String}
    (sameName : element.name? = some name)
    (coherent : ∀ input ∈ element.inputs, input.Coherent) :
    signatureHash name element.inputs = Keccak.hash (Text.utf8 element.signature) := by
  have same : element.inputs.map Param.hashedType = element.inputTypes :=
    List.map_congr_left fun input member =>
      Param.hashedType_eq_canonicalType (coherent input member)
  simp only [signatureHash, signature, sameName, same, Option.getD_some, String.append_assoc]

/-- The selector of a function, event or error opens the hash of its signature, and the topics of an
event's logs open with all of that hash, as long as the type texts say `tuple` exactly where there
are components. -/
theorem selector?_eq_take_hash_signature (strict : Bool) (room : Nat) {element : Element}
    (namedKind : element.kind.isNamed = true)
    (coherent : ∀ input ∈ element.inputs, input.Coherent) :
    let codec := Codec.standard strict room
    let hash := Keccak.hash (Text.utf8 element.signature)
    (∃ selector, codec.selector? element = some selector ∧ selector.1 = hash.1.take 4) ∧
      ∀ event, element = .event event → codec.signatureHash event = hash := by
  intro codec hash
  rw [← Element.isSome_name?_eq_isNamed] at namedKind
  obtain ⟨name, sameName⟩ := Option.isSome_iff_exists.1 namedKind
  have hashed := Element.signatureHash_eq_hash_signature sameName coherent
  constructor
  · refine ⟨Selector.ofHash (signatureHash name element.inputs), ?_, ?_⟩
    · change element.selector? = _
      rw [Element.selector?, sameName, Option.map_some]
    · rw [Selector.ofHash, hashed]
  · rintro event rfl
    obtain rfl := Option.some.inj sameName
    exact hashed

/-- Tuples in arrays of tuples are hashed as they are written. -/
theorem selector?_eq_take_hash_signature_of_tuples :
    let inner : Param :=
      ⟨"", "tuple[2]", [⟨"x", "uint256", [], none⟩, ⟨"", "string", [], none⟩], none⟩
    let inputs : List EventParam :=
      [⟨⟨"to", "address", [], none⟩, true⟩, ⟨⟨"", "tuple[][3]", [inner], none⟩, false⟩]
    let event : Event := ⟨"Sent", inputs, true⟩
    let hash := Keccak.hash (Text.utf8 "Sent(address,((uint256,string)[2])[][3])")
    (Element.event event).signature = "Sent(address,((uint256,string)[2])[][3])" ∧
      (∃ selector, (Codec.standard true 4096).selector? (.event event) = some selector ∧
        selector.1 = hash.1.take 4) ∧
      (Codec.standard true 4096).signatureHash event = hash := by
  intro inner inputs event hash
  have plain (name type : String) (noTuple : Param.tupleSuffix? type = none) :
      Param.Coherent ⟨name, type, [], none⟩ := .mk (by simp [noTuple]) (by simp)
  have innerCoherent : inner.Coherent := .mk (by decide) (List.forall_mem_cons.2
    ⟨plain _ _ (by decide), List.forall_mem_singleton.2 (plain _ _ (by decide))⟩)
  have tuples : ∀ input ∈ (Element.event event).inputs, input.Coherent :=
    List.forall_mem_cons.2 ⟨plain _ _ (by decide), List.forall_mem_singleton.2
      (.mk (by decide) (List.forall_mem_singleton.2 innerCoherent))⟩
  have written : (Element.event event).signature = "Sent(address,((uint256,string)[2])[][3])" := by
    decide
  obtain ⟨selects, hashed⟩ := selector?_eq_take_hash_signature true 4096 rfl tuples
  rw [written] at selects hashed
  exact ⟨written, selects, hashed event rfl⟩

end Element

end ContractAbi
