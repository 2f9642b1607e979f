import ContractAbi.Proofs.Call.Arrangement
import ContractAbi.Proofs.Call.Soundness

/-!
# Completeness of resolution

Arguments that can be coerced at the canonical types of a well-formed element need no alignment
(`Element.align_of_coerced`), and an element without a sibling is found with them. However they are
split into positional and named ones, the call is the same (`Interface.resolve_complete`).
-/

namespace ContractAbi

variable {strict : Bool} {room : Nat} {element : Element} {name : String} {values : List Argument}

/-- An argument that can be coerced at the canonical type of a well-formed parameter is aligned
already, and that type stands for a type. -/
theorem Param.align_of_coerced {param : Param} (wellFormed : param.WellFormed) {value : Argument}
    (coerced : (Argument.coerceText strict param.canonicalType value).isSome = true) :
    (∃ type, AbiType.parse param.canonicalType = .ok type) ∧
      Alignment.align param value = .ok value := by
  obtain ⟨type, declared⟩ := Option.isSome_iff_exists.1 wellFormed
  obtain ⟨result, found⟩ := Option.isSome_iff_exists.1 coerced
  obtain ⟨parsedType, parsed, typed⟩ := Argument.coerceText_eq_some_iff.1 found
  obtain rfl := Param.parse_canonicalType_unique declared parsed
  exact ⟨⟨parsedType, parsed⟩, Alignment.align_of_coerce declared typed⟩

/-- The same for all inputs at once. -/
theorem Alignment.zipWith_align_of_coerced {inputs : List Param}
    (wellFormed : ∀ input ∈ inputs, input.WellFormed)
    (coerced : List.Forall₂
      (fun input value => (Argument.coerceText strict input.canonicalType value).isSome = true)
      inputs values) :
    (∀ input ∈ inputs, ∃ type, AbiType.parse input.canonicalType = .ok type) ∧
      List.zipWith align inputs values = values.map .ok := by
  induction coerced with
  | nil => simp
  | cons first _ inductionHypothesis =>
    obtain ⟨inputWellFormed, othersWellFormed⟩ := List.forall_mem_cons.1 wellFormed
    obtain ⟨parsed, aligned⟩ := Param.align_of_coerced inputWellFormed first
    obtain ⟨othersParsed, othersAligned⟩ := inductionHypothesis othersWellFormed
    exact ⟨List.forall_mem_cons.2 ⟨parsed, othersParsed⟩, by simp [aligned, othersAligned]⟩

/-- Arguments that can be coerced at the canonical types of a well-formed element are aligned
already. -/
theorem Element.align_of_coerced (wellFormed : element.WellFormed)
    (coerced : List.Forall₂
      (fun type value => (Argument.coerceText strict type value).isSome = true)
      element.inputTypes values) :
    element.align values = .ok (element.inputTypes, values) := by
  have counted := coerced.length_eq
  rw [inputTypes, List.length_map] at counted
  rw [inputTypes, List.forall₂_map_left_iff] at coerced
  obtain ⟨parsed, aligned⟩ := Alignment.zipWith_align_of_coerced wellFormed coerced
  exact Element.align_eq_ok_iff.2 ⟨counted, rfl, parsed, aligned⟩

/-- A well-formed element takes arguments that are arranged to values which can be coerced at the
canonical types. -/
theorem Codec.verdict_of_coerced {arguments : List Argument} {named : NamedArguments}
    (loose : element.takesRawData = false) (wellFormed : element.WellFormed)
    (arranged : element.arrange arguments named = .ok values)
    (coerced : List.Forall₂
      (fun type value => (Argument.coerceText strict type value).isSome = true)
      element.inputTypes values) :
    (Codec.standard strict room).verdict arguments named element = .ok true := by
  obtain ⟨-, able⟩ := List.forall₂_iff_zip.1 coerced
  rw [Codec.verdict_eq_ok_true_iff loose]
  exact ⟨values, element.inputTypes, values, arranged, Element.length_of_arrange arranged,
    Element.align_of_coerced wellFormed coerced, fun entry member => able member⟩

namespace Interface

variable {interface : Interface} {before after : List Element} {arguments : List Argument}
  {named : NamedArguments}

/-- An element without a sibling of its name and argument count is the only candidate. -/
theorem candidates_eq_singleton (declared : interface.elements = before ++ element :: after)
    (sameName : element.name? = some name)
    (alone : ∀ other ∈ before ++ after, other.name? = some name →
      other.inputCount ≠ element.inputCount)
    (counted : arguments.length + named.size = element.inputCount) :
    interface.candidates name arguments named = [element] := by
  have namedKind := Element.isNamed_of_name? sameName
  have others : ∀ elements : List Element, (∀ other ∈ elements, other ∈ before ++ after) →
      (elements.filter fun other => other.kind.isNamed && other.name? = some name).filter
        (fun other => other.inputCount = element.inputCount) = [] := by
    intro elements among
    simp only [List.filter_filter, List.filter_eq_nil_iff, Bool.and_eq_true, decide_eq_true_eq,
      not_and]
    intro other member count _ otherName
    exact alone other (among other member) otherName count
  simp only [candidates, ofArity, Interface.named, declared, counted, List.filter_append,
    List.filter_cons, namedKind, sameName, decide_true, Bool.and_self, ↓reduceIte]
  rw [others before fun _ => List.mem_append_left _, others after fun _ => List.mem_append_right _]
  rfl

/-- An only candidate that takes the arguments is found, asked about or not. -/
theorem findByName_of_only_candidate {codec : Codec}
    (only : interface.candidates name arguments named = [element])
    (taken : codec.verdict arguments named element = .ok true) :
    (interface.findByName codec name arguments named).result = .ok element := by
  by_cases nothing : arguments = [] ∧ named.entries = []
  · rw [findByName_of_only nothing.1 nothing.2 only, Probed.result_unprobed]
  · rw [findByName_of_not_only fun fast => nothing ⟨fast.1, fast.2.1⟩, Probed.result_map,
      choose_eq_ok_iff, only, Codec.encodable_eq_ok_iff]
    have takes := Codec.takes_eq_true.2 taken
    exact ⟨by simpa using ⟨true, taken⟩, by simp [takes]⟩

/-- Arguments that are arranged to values which can be coerced at the canonical types resolve to
the only candidate, and those values stay as they are. -/
theorem resolve_of_arrange (ordinary : Identifier.IsOrdinary name)
    (only : interface.candidates name arguments named = [element])
    (wellFormed : element.WellFormed)
    (coerced : List.Forall₂
      (fun type value => (Argument.coerceText strict type value).isSome = true)
      element.inputTypes values)
    (arranged : element.arrange arguments named = .ok values) :
    (interface.resolve (.standard strict room) (.name name) arguments named).result =
      .ok ⟨element, element.selector?, element.inputTypes, values⟩ := by
  have candidate : element ∈ interface.candidates name arguments named := by simp [only]
  have loose : element.takesRawData = false := takesRawData_of_mem_candidates candidate
  have aligned := Element.align_of_coerced wellFormed coerced
  have taken : (Codec.standard strict room).verdict arguments named element = .ok true :=
    Codec.verdict_of_coerced loose wellFormed arranged coerced
  have called : ResolvedCall.ofElement (.standard strict room) element arguments named =
      .ok ⟨element, element.selector?, element.inputTypes, values⟩ :=
    ResolvedCall.ofElement_eq_ok loose arranged aligned
  rw [resolve, Probed.result_map, findElement_eq_findByName ordinary,
    findByName_of_only_candidate only taken, Outcome.ok_bind, called]
  rfl

/-- Declared arguments always resolve. Under an ordinary name, a well-formed element without a
sibling of its name and argument count takes all values that can be coerced at the canonical types
of its inputs, however they are split into positional ones and ones under the names of the other
inputs, as long as these names are unambiguous. The call goes to the element, its arguments are the
values in declared order, and it is encoded the same way for every split. -/
theorem resolve_complete (strict : Bool) (room : Nat) {interface : Interface}
    {before after : List Element}
    {element : Element} {name : String} (ordinary : Identifier.IsOrdinary name)
    (declared : interface.elements = before ++ element :: after)
    (sameName : element.name? = some name)
    (alone : ∀ other ∈ before ++ after, other.name? = some name →
      other.inputCount ≠ element.inputCount)
    (wellFormed : element.WellFormed) {values : List Argument}
    (coerced : List.Forall₂
      (fun type value => ((Codec.standard strict room).coerce type value).isSome = true)
      element.inputTypes values) :
    ∃ calldata, ∀ split ≤ values.length,
      ((element.inputs.drop split).map Param.name).Nodup →
      (∀ input ∈ element.inputs.drop split,
        input.name ∉ (element.inputs.take split).map Param.name) →
      let named := NamedArguments.ofList
        (((element.inputs.drop split).map Param.name).zip (values.drop split))
      ∃ call, (interface.resolve (.standard strict room) (.name name)
          (values.take split) named).result =
          .ok call ∧
        call.element = element ∧ call.arguments = values ∧ call.types = element.inputTypes ∧
        call.encodeInput (.standard strict room) = .ok calldata := by
  obtain ⟨counted, able⟩ := List.forall₂_iff_zip.1 coerced
  rw [Element.inputTypes, List.length_map] at counted
  have selects :
      element.selector? = some (Selector.ofHash (signatureHash name element.inputs)) := by
    rw [Element.selector?, sameName, Option.map_some]
  let resolved : ResolvedCall := ⟨element, element.selector?, element.inputTypes, values⟩
  have complete : resolved.arguments.length = resolved.types.length := by
    simp [resolved, Element.inputTypes, counted]
  obtain ⟨calldata, encoded⟩ : ∃ calldata, resolved.encodeInput (.standard strict room) =
      .ok calldata := by
    obtain ⟨body, encoded, -⟩ := ResolvedCall.encodeInput_of_coerced selects complete
      fun entry member => able member
    exact ⟨_, encoded⟩
  refine ⟨calldata, ?_⟩
  intro split bound distinct apart named
  have front : (values.take split).length = split := List.length_take_of_le bound
  have behind : ((element.inputs.drop split).map Param.name).length =
      (values.drop split).length := by
    rw [List.length_map, List.length_drop, List.length_drop, counted]
  have same : named.entries.Perm
      (((element.inputs.drop split).map Param.name).zip (values.drop split)) :=
    Keyed.ofList_perm (by rwa [List.map_fst_zip (Nat.le_of_eq behind)])
  have arranged : element.arrange (values.take split) named =
      .ok (values.take split ++ values.drop split) := by
    apply Element.arrange_eq_append
    · rw [front, List.length_drop, Element.inputCount]
      omega
    · rwa [front]
    · rwa [front]
    · rwa [front]
  rw [List.take_append_drop] at arranged
  have supplied : (values.take split).length + named.size = element.inputCount := by
    rw [front, NamedArguments.size, same.length_eq, List.length_zip, behind, Nat.min_self,
      List.length_drop, Element.inputCount]
    omega
  have only := candidates_eq_singleton declared sameName alone supplied
  exact ⟨resolved, resolve_of_arrange ordinary only wellFormed coerced arranged, rfl, rfl, rfl,
    encoded⟩

/-- A list of tuples and a truth value are encoded the same way by position, by name, and half by
each. -/
theorem resolve_complete_of_tuples :
    let pairs : Param :=
      ⟨"pairs", "tuple[]", [⟨"x", "bool", [], none⟩, ⟨"y", "bytes", [], none⟩], none⟩
    let element : Element := .function ⟨"f", [pairs, ⟨"flag", "bool", [], none⟩], [], .nonPayable⟩
    let interface : Interface := ⟨[.event ⟨"f", [], false⟩, element]⟩
    let values : List Argument := [.list [.list [.bool true, .bytes [1]]], .bool false]
    ∃ calldata, ∀ split ≤ 2,
      let named := NamedArguments.ofList (["pairs", "flag"].drop split |>.zip (values.drop split))
      ∃ call, (interface.resolve (.standard true 4096) (.name "f")
          (values.take split) named).result = .ok call ∧
        call.arguments = values ∧ call.encodeInput (.standard true 4096) = .ok calldata := by
  intro pairs element interface values
  have wellFormed : element.WellFormed := by
    intro input member
    simp only [element, Element.inputs, List.mem_cons, List.not_mem_nil, or_false] at member
    rcases member with rfl | rfl
    · change (Param.declaredType? pairs).isSome = true
      cbv
    · change (Param.declaredType? ⟨"flag", "bool", [], none⟩).isSome = true
      cbv
  have types : element.inputTypes = ["(bool,bytes)[]", "bool"] := by decide
  have pairsCoerced : (Argument.coerceText true "(bool,bytes)[]"
      (.list [.list [.bool true, .bytes [1]]])).isSome = true := by cbv
  have flagCoerced : (Argument.coerceText true "bool" (.bool false)).isSome = true := by cbv
  have coerced : List.Forall₂
      (fun type value => ((Codec.standard true 4096).coerce type value).isSome = true)
      element.inputTypes values := by
    simp only [types, values, Codec.coerce_standard, List.forall₂_cons,
      List.forall₂_nil_left_iff, pairsCoerced, flagCoerced, and_self]
  have names : ∀ split ≤ 2, ((element.inputs.drop split).map Param.name).Nodup ∧
      ∀ input ∈ element.inputs.drop split,
        input.name ∉ (element.inputs.take split).map Param.name := by decide
  have alone : ∀ other ∈ [Element.event ⟨"f", [], false⟩] ++ [], other.name? = some "f" →
      other.inputCount ≠ element.inputCount := by decide
  obtain ⟨calldata, resolves⟩ := resolve_complete true 4096 (by decide)
    (show interface.elements = [.event ⟨"f", [], false⟩] ++ element :: [] from rfl) rfl alone
    wellFormed coerced
  refine ⟨calldata, ?_⟩
  intro split bound named
  obtain ⟨distinct, apart⟩ := names split bound
  obtain ⟨call, resolved, -, arguments, -, encoded⟩ := resolves split bound distinct apart
  refine ⟨call, ?_, arguments, encoded⟩
  rw [List.map_drop] at resolved
  exact resolved

end Interface

end ContractAbi
