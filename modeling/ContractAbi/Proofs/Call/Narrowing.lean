import ContractAbi.Proofs.Argument.Widening
import ContractAbi.Proofs.Call.Completeness
import ContractAbi.Proofs.Call.Dedicated
import ContractAbi.Proofs.Call.Mismatch

/-!
# Overloads with wider inputs

Arguments without mappings that an overload takes are also taken by an overload with wider inputs,
unless there is no answer on that one (`Codec.verdict_of_isBelow`). So the narrower overload is
never the only one that takes them, and no lookup finds it
(`Interface.WiderOverload.findByName_ne`).
-/

namespace ContractAbi

variable {strict : Bool} {room : Nat} {arguments : List Argument}

namespace Param

/-- Both parameters are well-formed, and the first one declares a type below that of the second
one. -/
def IsBelow (narrow wide : Param) : Prop :=
  ∃ type wider, narrow.declaredType? = some type ∧ wide.declaredType? = some wider ∧
    type.IsBelow wider

/-- The argument can be coerced at the type that the parameter declares. -/
def Takes (strict : Bool) (param : Param) (argument : Argument) : Prop :=
  ∃ type value, param.declaredType? = some type ∧ argument.coerce strict type = some value

theorem Takes.of_isBelow {narrow wide : Param} {argument : Argument}
    (taken : narrow.Takes strict argument) (below : narrow.IsBelow wide) :
    wide.Takes strict argument := by
  obtain ⟨type, wider, narrowDeclared, wideDeclared, typeBelow⟩ := below
  obtain ⟨_, value, declared, coerced⟩ := taken
  obtain rfl := Option.some.inj (narrowDeclared.symm.trans declared)
  obtain ⟨widerValue, widerCoerced⟩ := Argument.exists_coerced_of_isBelow typeBelow coerced
  exact ⟨wider, widerValue, wideDeclared, widerCoerced⟩

variable {narrows wides : List Param}

theorem forall₂_takes_of_isBelow (below : List.Forall₂ IsBelow narrows wides)
    (taken : List.Forall₂ (Takes strict) narrows arguments) :
    List.Forall₂ (Takes strict) wides arguments := by
  induction below generalizing arguments with
  | nil => exact taken
  | cons first _ inductionHypothesis =>
    cases taken with
    | cons firstTaken othersTaken =>
      exact .cons (firstTaken.of_isBelow first) (inductionHypothesis othersTaken)

theorem wellFormed_of_isBelow (below : List.Forall₂ IsBelow narrows wides) :
    (∀ narrow ∈ narrows, narrow.WellFormed) ∧ ∀ wide ∈ wides, wide.WellFormed := by
  induction below with
  | nil => simp
  | cons first _ inductionHypothesis =>
    obtain ⟨narrowsWellFormed, widesWellFormed⟩ := inductionHypothesis
    obtain ⟨_, _, narrowDeclared, wideDeclared, -⟩ := first
    exact ⟨List.forall_mem_cons.2 ⟨by rw [WellFormed, narrowDeclared]; rfl, narrowsWellFormed⟩,
      List.forall_mem_cons.2 ⟨by rw [WellFormed, wideDeclared]; rfl, widesWellFormed⟩⟩

end Param

namespace Alignment

/-- Arguments without mappings that are aligned to well-formed inputs and then coerced at their
canonical types can be coerced at the declared types as they are. -/
theorem forall₂_takes_of_aligned {inputs : List Param}
    (wellFormed : ∀ input ∈ inputs, input.WellFormed)
    (counted : inputs.length = arguments.length)
    (plain : ∀ argument ∈ arguments, argument.hasMapping = false) {aligned : List Argument}
    (aligns : List.zipWith align inputs arguments = aligned.map .ok)
    (able : ∀ entry ∈ (inputs.map Param.canonicalType).zip aligned,
      (Argument.coerceText strict entry.1 entry.2).isSome = true) :
    List.Forall₂ (Param.Takes strict) inputs arguments := by
  induction inputs generalizing arguments aligned with
  | nil =>
    obtain rfl := List.length_eq_zero_iff.1 counted.symm
    exact .nil
  | cons input inputs inductionHypothesis =>
    match arguments, aligned with
    | argument :: arguments, first :: others =>
      obtain ⟨inputWellFormed, othersWellFormed⟩ := List.forall_mem_cons.1 wellFormed
      obtain ⟨argumentPlain, othersPlain⟩ := List.forall_mem_cons.1 plain
      obtain ⟨firstAligns, othersAlign⟩ := List.cons.inj aligns
      obtain ⟨firstAble, othersAble⟩ := List.forall_mem_cons.1 able
      obtain rfl := eq_of_align argumentPlain firstAligns
      obtain ⟨type, declared⟩ := Option.isSome_iff_exists.1 inputWellFormed
      obtain ⟨value, found⟩ := Option.isSome_iff_exists.1 firstAble
      obtain ⟨parsedType, parsed, coerced⟩ := Argument.coerceText_eq_some_iff.1 found
      obtain rfl := Param.parse_canonicalType_unique declared parsed
      exact .cons ⟨parsedType, value, declared, coerced⟩
        (inductionHypothesis othersWellFormed (Nat.succ.inj counted) othersPlain othersAlign
          othersAble)

theorem fit_of_takes {inputs : List Param}
    (taken : List.Forall₂ (Param.Takes strict) inputs arguments) : Fit inputs arguments := by
  rintro ⟨input, argument⟩ member
  obtain ⟨type, value, declared, coerced⟩ := (List.forall₂_iff_zip.1 taken).2 member
  exact ⟨argument, align_of_coerce declared coerced⟩

end Alignment

namespace Codec

/-- An argument that is coerced at a text is coerced at a text for a wider type. -/
theorem isSome_coerce_of_isBelow {text wideText : String} {narrow wide : AbiType}
    (parsed : AbiType.parse text = .ok narrow) (wideParsed : AbiType.parse wideText = .ok wide)
    (below : narrow.IsBelow wide) {argument : Argument}
    (coerced : ((Codec.standard strict room).coerce text argument).isSome = true) :
    ((Codec.standard strict room).coerce wideText argument).isSome = true := by
  have coercedAs {text : String} {type : AbiType} (parsed : AbiType.parse text = .ok type) :
      (Codec.standard strict room).coerce text argument = argument.coerce strict type := by
    rw [coerce_standard, Argument.coerceText, AbiType.parse?_eq_some_iff.2 parsed,
      Option.bind_some]
  rw [coercedAs parsed] at coerced
  rw [coercedAs wideParsed]
  exact Argument.isSome_coerce_of_isBelow below coerced

/-- When positional arguments fit an element and the codec answers on it, its type texts stand for
types. -/
theorem parsable_of_answers {element : Element} (loose : element.takesRawData = false)
    (counted : arguments.length = element.inputCount)
    (fits : Alignment.Fit element.inputs arguments)
    (answers : (Codec.standard strict room).Answers arguments .empty element) :
    ∀ input ∈ element.inputs, ∃ type, AbiType.parse input.canonicalType = .ok type := by
  cases outcome : element.align arguments with
  | ok result => exact (Element.align_eq_ok_iff.1 outcome).2.2.1
  | error error =>
    have failed : Alignment.alignInputs element.inputs arguments = .error error := by
      simpa [Element.align, counted] using outcome
    have unanswered :
        (Codec.standard strict room).verdict arguments .empty element = .error error :=
      (verdict_eq_error_iff loose).2 ⟨Alignment.not_isMismatch_of_fit fits failed,
        .inr ⟨arguments, Element.arrange_of_positional counted rfl, counted, outcome⟩⟩
    obtain ⟨taken, answer⟩ := answers
    cases answer.symm.trans unanswered

/-- Positional arguments without mappings that an element takes are taken by an element with wider
inputs, if there is an answer on that one. -/
theorem verdict_of_isBelow {narrow wide : Element}
    (below : List.Forall₂ Param.IsBelow narrow.inputs wide.inputs)
    (narrowLoose : narrow.takesRawData = false) (wideLoose : wide.takesRawData = false)
    (counted : arguments.length = narrow.inputCount)
    (plain : ∀ argument ∈ arguments, argument.hasMapping = false)
    (taken : (Codec.standard strict room).verdict arguments .empty narrow = .ok true)
    (answers : (Codec.standard strict room).Answers arguments .empty wide) :
    (Codec.standard strict room).verdict arguments .empty wide = .ok true := by
  obtain ⟨narrowWellFormed, wideWellFormed⟩ := Param.wellFormed_of_isBelow below
  have narrowTakes : List.Forall₂ (Param.Takes strict) narrow.inputs arguments := by
    obtain ⟨arranged, types, aligned, arranges, -, aligns, able⟩ :=
      (verdict_eq_ok_true_iff narrowLoose).1 taken
    obtain rfl := Except.ok.inj ((Element.arrange_of_positional counted rfl).symm.trans arranges)
    obtain ⟨count, rfl, -, each⟩ := Element.align_eq_ok_iff.1 aligns
    exact Alignment.forall₂_takes_of_aligned narrowWellFormed count plain each able
  have wideTakes := Param.forall₂_takes_of_isBelow below narrowTakes
  have wideCounted : arguments.length = wide.inputCount := counted.trans below.length_eq
  have parsable :=
    parsable_of_answers wideLoose wideCounted (Alignment.fit_of_takes wideTakes) answers
  apply verdict_of_coerced wideLoose wideWellFormed
    (Element.arrange_of_positional wideCounted rfl)
  rw [Element.inputTypes, List.forall₂_map_left_iff, List.forall₂_iff_zip]
  refine ⟨wideTakes.length_eq, ?_⟩
  intro input argument member
  obtain ⟨type, value, declared, coerced⟩ := (List.forall₂_iff_zip.1 wideTakes).2 member
  obtain ⟨parsedType, parsed⟩ := parsable input (List.of_mem_zip member).1
  obtain rfl := Param.parse_canonicalType_unique declared parsed
  exact Option.isSome_iff_exists.2
    ⟨value, Argument.coerceText_eq_some_iff.2 ⟨parsedType, parsed, coerced⟩⟩

end Codec

namespace Interface

/-- Two entries of an interface have the same name, and each input of the first one declares a type
below that of the second one's input at its place. -/
structure WiderOverload (interface : Interface) (name : String) (narrow wide : Element) :
    Prop where
  /-- The entries stand at two positions, in whatever order. -/
  declared : ∃ others, interface.elements.Perm (narrow :: wide :: others)
  narrowName : narrow.name? = some name
  wideName : wide.name? = some name
  below : List.Forall₂ Param.IsBelow narrow.inputs wide.inputs

variable {interface : Interface} {name : String} {narrow wide : Element}

/-- Overloads with equally many inputs are candidates together. -/
theorem WiderOverload.candidates_perm (wider : interface.WiderOverload name narrow wide)
    (counted : arguments.length = narrow.inputCount) :
    ∃ others, (interface.candidates name arguments .empty).Perm (narrow :: wide :: others) := by
  obtain ⟨others, declared⟩ := wider.declared
  have wideCount : wide.inputCount = narrow.inputCount := wider.below.length_eq.symm
  refine ⟨(⟨others⟩ : Interface).candidates name arguments .empty, ?_⟩
  have kept := (declared.filter fun element => element.kind.isNamed && element.name? = some name)
    |>.filter fun element => element.inputCount = arguments.length + NamedArguments.empty.size
  simpa [candidates, ofArity, Interface.named, List.filter_cons, wider.narrowName, wider.wideName,
    Element.isNamed_of_name? wider.narrowName, Element.isNamed_of_name? wider.wideName,
    NamedArguments.size, NamedArguments.empty, counted, wideCount] using kept

/-- Arguments without mappings that the narrower overload takes are taken at two positions at
least. -/
theorem WiderOverload.two_le_length_filter (wider : interface.WiderOverload name narrow wide)
    (counted : arguments.length = narrow.inputCount)
    (plain : ∀ argument ∈ arguments, argument.hasMapping = false)
    (taken : (Codec.standard strict room).verdict arguments .empty narrow = .ok true)
    (answered : ∀ candidate ∈ interface.candidates name arguments .empty,
      (Codec.standard strict room).Answers arguments .empty candidate) :
    2 ≤ ((interface.candidates name arguments .empty).filter
      ((Codec.standard strict room).takes arguments .empty)).length := by
  obtain ⟨others, both⟩ := wider.candidates_perm counted
  have loose {element : Element} (named : element.name? = some name) :
      element.takesRawData = false :=
    Element.takesRawData_of_isNamed (Element.isNamed_of_name? named)
  have wideTaken := Codec.verdict_of_isBelow wider.below (loose wider.narrowName)
    (loose wider.wideName) counted plain taken (answered wide (both.mem_iff.2 (by simp)))
  rw [(both.filter _).length_eq]
  simp [Codec.takes_eq_true.2 taken, Codec.takes_eq_true.2 wideTaken]

/-- With a wider overload in the interface, the codec decides about all candidates. -/
theorem WiderOverload.not_only (wider : interface.WiderOverload name narrow wide)
    (counted : arguments.length = narrow.inputCount) :
    ¬(arguments = [] ∧ NamedArguments.empty.entries = [] ∧
      (interface.candidates name arguments .empty).length = 1) := by
  rintro ⟨-, -, single⟩
  obtain ⟨others, both⟩ := wider.candidates_perm counted
  simp [both.length_eq] at single

/-- A lookup does not find an entry when it has a wider overload. -/
theorem WiderOverload.findByName_ne (wider : interface.WiderOverload name narrow wide)
    (plain : ∀ argument ∈ arguments, argument.hasMapping = false) :
    (interface.findByName (.standard strict room) name arguments .empty).result ≠ .ok narrow := by
  intro found
  obtain ⟨candidate, taken⟩ := verdict_of_findByName found
  have counted : arguments.length = narrow.inputCount := (mem_candidates_iff.1 candidate).2.2.2.symm
  obtain ⟨answered, only⟩ := (findByName_eq_ok_iff_of_not_only (wider.not_only counted)).1 found
  have two := wider.two_le_length_filter counted plain taken answered
  simp [only] at two

/-- A lookup with arguments that the narrower overload takes is ambiguous. -/
theorem WiderOverload.findByName_of_taken (wider : interface.WiderOverload name narrow wide)
    (counted : arguments.length = narrow.inputCount)
    (plain : ∀ argument ∈ arguments, argument.hasMapping = false)
    (taken : (Codec.standard strict room).verdict arguments .empty narrow = .ok true)
    (answered : ∀ candidate ∈ interface.candidates name arguments .empty,
      (Codec.standard strict room).Answers arguments .empty candidate) :
    (interface.findByName (.standard strict room) name arguments .empty).result =
      .error (.unresolved (Diagnosis.ofCall name .ambiguous arguments .empty
        ((interface.named name).map Element.signature))) := by
  obtain ⟨others, both⟩ := wider.candidates_perm counted
  have some : (interface.candidates name arguments .empty).length ≠ 0 := by simp [both.length_eq]
  rw [findByName_of_not_only (wider.not_only counted), Probed.result_map,
    Codec.encodable_eq_ok_iff.2 ⟨answered, rfl⟩]
  exact choose_of_several some (wider.two_le_length_filter counted plain taken answered)

/-- No call is resolved to an entry when it has a wider overload. -/
theorem WiderOverload.element_ne_of_resolve (wider : interface.WiderOverload name narrow wide)
    (plain : ∀ argument ∈ arguments, argument.hasMapping = false) {identifier : Identifier}
    {call : ResolvedCall}
    (called : (interface.resolve (.standard strict room) identifier arguments .empty).result =
      .ok call) : call.element ≠ narrow := by
  intro same
  obtain ⟨element, found, made⟩ := resolve_eq_ok_iff.1 called
  obtain rfl : element = narrow := (ResolvedCall.element_of_ofElement made).symm.trans same
  obtain ⟨other, rfl, otherName, ordinary⟩ :=
    ordinary_of_findElement found (Element.isNamed_of_name? wider.narrowName)
  obtain rfl := Option.some.inj (otherName.symm.trans wider.narrowName)
  rw [findElement_eq_findByName ordinary] at found
  exact wider.findByName_ne plain found

/-- A narrower overload never wins against a wider one. What can be coerced at a type can be coerced
at all types above it. So an overload whose inputs are wider takes all positional arguments without
mappings that the narrower one takes: no call is resolved to the narrower one, and where it takes
the arguments, the lookup is ambiguous as long as the codec answers on all candidates. -/
theorem resolve_ne_of_wider (strict : Bool) (room : Nat) :
    let codec := Codec.standard strict room
    (∀ narrow wide : AbiType, narrow.IsBelow wide → ∀ argument,
      (Argument.coerce strict narrow argument).isSome = true →
        (Argument.coerce strict wide argument).isSome = true) ∧
    (∀ text wideText narrow wide, AbiType.parse text = .ok narrow →
      AbiType.parse wideText = .ok wide → narrow.IsBelow wide → ∀ argument,
        (codec.coerce text argument).isSome = true →
          (codec.coerce wideText argument).isSome = true) ∧
    ∀ (interface : Interface) (name : String) (narrow wide : Element),
      interface.WiderOverload name narrow wide → ∀ arguments,
        (∀ argument ∈ arguments, argument.hasMapping = false) →
        (∀ identifier call,
          (interface.resolve codec identifier arguments .empty).result = .ok call →
            call.element ≠ narrow) ∧
        (Identifier.IsOrdinary name → arguments.length = narrow.inputCount →
          codec.takes arguments .empty narrow = true →
          (∀ candidate ∈ interface.candidates name arguments .empty,
            codec.Answers arguments .empty candidate) →
          ∃ account, (interface.resolve codec (.name name) arguments .empty).result =
            .error (.unresolved account) ∧ account.reason = .ambiguous) := by
  intro codec
  refine ⟨fun _ _ below _ => Argument.isSome_coerce_of_isBelow below,
    fun _ _ _ _ parsed wideParsed below _ =>
      Codec.isSome_coerce_of_isBelow parsed wideParsed below, ?_⟩
  intro interface name narrow wide wider arguments plain
  refine ⟨fun _ _ => wider.element_ne_of_resolve plain, ?_⟩
  intro ordinary counted taken answered
  have ambiguous := wider.findByName_of_taken counted plain (Codec.takes_eq_true.1 taken) answered
  rw [resolve, Probed.result_map, findElement_eq_findByName ordinary, ambiguous]
  exact ⟨_, rfl, rfl⟩

/-- A list of pairs fits an overload for two pairs, but the call is ambiguous when there is one for
any number of wider pairs. -/
theorem resolve_ne_of_wider_of_pairs :
    let two : Param :=
      ⟨"a", "tuple[2]", [⟨"x", "uint8", [], none⟩, ⟨"y", "bytes4", [], none⟩], none⟩
    let several : Param :=
      ⟨"b", "tuple[]", [⟨"x", "int16", [], none⟩, ⟨"y", "bytes", [], none⟩], none⟩
    let narrow : Element := .function ⟨"f", [two], [], .nonPayable⟩
    let wide : Element := .function ⟨"f", [several], [], .nonPayable⟩
    let nullary : Element := .function ⟨"f", [], [], .nonPayable⟩
    let interface : Interface := ⟨[wide, nullary, narrow]⟩
    let pair : Argument := .list [.uint ⟨7, by decide⟩, .bytes [1, 2, 3, 4]]
    let arguments : List Argument := [.list [pair, pair]]
    let wideType : AbiType := .array (.tuple [.int ⟨16, by decide⟩, .bytes])
    (Codec.standard true 4096).takes arguments .empty narrow = true ∧
      (Argument.coerce true wideType (.list [pair, pair])).isSome = true ∧
      ((Codec.standard true 4096).coerce "(int16,bytes)[]" (.list [pair, pair])).isSome = true ∧
      (∀ identifier call,
        (interface.resolve (.standard true 4096) identifier arguments .empty).result = .ok call →
        call.element ≠ narrow) ∧
      ∃ account, (interface.resolve (.standard true 4096) (.name "f") arguments .empty).result =
        .error (.unresolved account) ∧ account.reason = .ambiguous := by
  intro two several narrow wide nullary interface pair arguments wideType
  let narrowType : AbiType :=
    .fixedArray (.tuple [.uint ⟨8, by decide⟩, .fixedBytes ⟨4, by decide⟩]) ⟨2, by decide⟩
  have below : narrowType.IsBelow wideType :=
    .unsized _ (.tuple (.cons (.signed (by decide)) (.cons (.bytes _) .nil)))
  have wider : interface.WiderOverload "f" narrow wide := by
    refine ⟨⟨[nullary], ?_⟩, rfl, rfl, .cons ⟨narrowType, wideType, ?_, ?_, below⟩ .nil⟩
    · decide
    · cbv
    · cbv
  have plain : ∀ argument ∈ arguments, argument.hasMapping = false := by decide
  have narrowTakes : (Codec.standard true 4096).takes arguments .empty narrow = true := by cbv
  have coerced : (Argument.coerce true narrowType (.list [pair, pair])).isSome = true := by cbv
  have narrowText : AbiType.parse "(uint8,bytes4)[2]" = .ok narrowType := by cbv
  have wideText : AbiType.parse "(int16,bytes)[]" = .ok wideType := by cbv
  have textCoerced :
      ((Codec.standard true 4096).coerce "(uint8,bytes4)[2]"
        (.list [pair, pair])).isSome = true := by
    cbv
  have wideTakes : (Codec.standard true 4096).takes arguments .empty wide = true := by cbv
  have fitting : interface.candidates "f" arguments .empty = [wide, narrow] := by decide
  have answered : ∀ candidate ∈ interface.candidates "f" arguments .empty,
      (Codec.standard true 4096).Answers arguments .empty candidate := by
    rw [fitting]
    exact List.forall_mem_cons.2 ⟨⟨true, Codec.takes_eq_true.1 wideTakes⟩,
      List.forall_mem_singleton.2 ⟨true, Codec.takes_eq_true.1 narrowTakes⟩⟩
  obtain ⟨widens, textWidens, resolves⟩ := resolve_ne_of_wider true 4096
  obtain ⟨never, ambiguous⟩ := resolves interface "f" narrow wide wider arguments plain
  exact ⟨narrowTakes, widens _ _ below _ coerced,
    textWidens _ _ _ _ narrowText wideText below _ textCoerced, never,
    ambiguous (by decide) rfl narrowTakes answered⟩

end Interface

end ContractAbi
