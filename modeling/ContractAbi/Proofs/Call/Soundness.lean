import ContractAbi.Proofs.Call.Alignment
import ContractAbi.Proofs.Call.Arrangement
import ContractAbi.Proofs.Call.Codec
import ContractAbi.Proofs.Call.Lookup

/-!
# Soundness of resolution

An element that a lookup gives takes the arguments, also when it was not asked about
(`Interface.verdict_of_findByName`). So arranging and aligning the arguments once more cannot fail,
and the resolved call can be encoded (`Interface.resolve_sound`).
-/

namespace ContractAbi

namespace Codec

variable {codec : Codec} {arguments : List Argument} {named : NamedArguments} {element : Element}

/-- Probing succeeds when every argument can be encoded at its type. -/
theorem result_probeEach (entries : List (String × Argument)) :
    (codec.probeEach entries).result = entries.all fun entry =>
      codec.isEncodable entry.1 entry.2 := by
  induction entries with
  | nil => rfl
  | cons entry entries inductionHypothesis =>
    obtain ⟨type, argument⟩ := entry
    cases able : codec.isEncodable type argument <;> simp [probeEach, able, inductionHypothesis]

/-- An ordinary mismatch becomes a refusal, never an acceptance. -/
theorem refuse_ne_ok_true (error : EncodingError) : refuse error ≠ .ok true := by
  unfold refuse
  split <;> simp

/-- What is no ordinary mismatch stays an error. -/
theorem refuse_eq_error_iff {error fault : EncodingError} :
    refuse error = .error fault ↔ error = fault ∧ error.isMismatch = false := by
  unfold refuse
  split <;> simp_all

/-- An element with inputs takes the arguments when they have an arrangement with one argument for
each input, and an alignment in which every argument can be encoded at its type. -/
theorem verdict_eq_ok_true_iff (loose : element.takesRawData = false) :
    codec.verdict arguments named element = .ok true ↔
      ∃ arranged types aligned, codec.arrange element arguments named = .ok arranged ∧
        arranged.length = element.inputCount ∧
        codec.align element arranged = .ok (types, aligned) ∧
        ∀ entry ∈ types.zip aligned, codec.isEncodable entry.1 entry.2 = true := by
  simp only [verdict, canEncode, loose, Bool.false_eq_true, ↓reduceIte]
  cases arranges : codec.arrange element arguments named with
  | error error => simp [refuse_ne_ok_true]
  | ok arranged =>
    by_cases counted : arranged.length = element.inputCount
    · cases aligns : codec.align element arranged with
      | error error => simp [counted, aligns, refuse_ne_ok_true]
      | ok result =>
        obtain ⟨types, aligned⟩ := result
        simp only [counted, aligns, ne_eq, not_true_eq_false, ↓reduceIte, Probed.result_map,
          result_probeEach, Except.ok.injEq, List.all_eq_true]
        grind
    · simp [counted]

/-- There is no answer on an element with inputs when arrangement or alignment fails with an error
that is no ordinary mismatch. -/
theorem verdict_eq_error_iff (loose : element.takesRawData = false) {error : EncodingError} :
    codec.verdict arguments named element = .error error ↔
      error.isMismatch = false ∧
        (codec.arrange element arguments named = .error error ∨
          ∃ arranged, codec.arrange element arguments named = .ok arranged ∧
            arranged.length = element.inputCount ∧
            codec.align element arranged = .error error) := by
  simp only [verdict, canEncode, loose, Bool.false_eq_true, ↓reduceIte]
  cases arranges : codec.arrange element arguments named with
  | error fault =>
    simp only [Probed.result_unprobed, refuse_eq_error_iff]
    grind
  | ok arranged =>
    by_cases counted : arranged.length = element.inputCount
    · cases aligns : codec.align element arranged with
      | error fault =>
        simp only [counted, aligns, ne_eq, not_true_eq_false, ↓reduceIte, Probed.result_unprobed,
          refuse_eq_error_iff]
        grind
      | ok result => simp [counted, aligns]
    · simp [counted]

/-- A call without arguments is taken, unprobed, by every element without inputs. -/
theorem canEncode_of_no_inputs (arranges : codec.arrange = Element.arrange)
    (aligns : codec.align = Element.align) (noneNamed : named.entries = [])
    (noInputs : element.inputCount = 0) :
    codec.canEncode element [] named = .unprobed (.ok true) := by
  have noneExpected : ([] : List Argument).length = element.inputCount := noInputs.symm
  have arranged : element.arrange [] named = .ok [] :=
    Element.arrange_of_positional noneExpected noneNamed
  have none : element.inputs = [] := List.length_eq_zero_iff.1 noInputs
  have aligned : element.align [] = .ok ([], []) :=
    Element.align_eq_ok_iff.2 (by simp [Element.inputCount, Element.inputTypes, none])
  unfold canEncode
  split
  · rfl
  · simp only [arranges, arranged, aligns, aligned, noInputs, List.length_nil, ne_eq,
      not_true_eq_false, ↓reduceIte]
    rfl

end Codec

namespace Element

theorem isNamed_of_name? {element : Element} {name : String} (named : element.name? = some name) :
    element.kind.isNamed = true := by
  rw [← isSome_name?_eq_isNamed, named, Option.isSome_some]

/-- What has a name takes arguments, not raw data. -/
theorem takesRawData_of_isNamed {element : Element} (namedKind : element.kind.isNamed = true) :
    element.takesRawData = false := by
  cases element <;> simp [kind, ElementKind.isNamed] at namedKind <;> rfl

end Element

/-- A call that answers a lookup of a name in an interface and is ready to be encoded. -/
structure ResolvedCall.ReadyFor (call : ResolvedCall) (interface : Interface) (codec : Codec)
    (name : String) (supplied : Nat) : Prop where
  declared : call.element ∈ interface.elements
  namedKind : call.element.kind.isNamed = true
  sameName : call.element.name? = some name
  counted : call.element.inputCount = supplied
  types : call.types = call.element.inputTypes
  argumentCount : call.arguments.length = call.types.length
  coerced : ∀ entry ∈ call.types.zip call.arguments, (codec.coerce entry.1 entry.2).isSome = true
  /-- The encoded call is its selector with whole words behind it. -/
  encoded : ∃ selector body, call.selector? = some selector ∧
    call.element.selector? = some selector ∧
    call.encodeInput codec = .ok (selector.1 ++ body) ∧ 32 ∣ body.length

namespace ResolvedCall

variable {strict : Bool} {room : Nat} {element : Element} {arguments : List Argument}
  {named : NamedArguments}

/-- A call is resolved when the arguments have an arrangement and an alignment. -/
theorem ofElement_eq_ok_iff {codec : Codec} {call : ResolvedCall}
    (loose : element.takesRawData = false) :
    ofElement codec element arguments named = .ok call ↔
      ∃ arranged types aligned, codec.arrange element arguments named = .ok arranged ∧
        codec.align element arranged = .ok (types, aligned) ∧
        call = ⟨element, codec.selector? element, types, aligned⟩ := by
  simp only [ofElement, loose, Bool.false_eq_true, ↓reduceIte, Outcome.bind_eq_ok,
    Outcome.pure_eq, Except.ok.injEq, Prod.exists, eq_comm (b := call)]
  grind

/-- A call goes to the element that it was made for. -/
theorem element_of_ofElement {codec : Codec} {call : ResolvedCall}
    (made : ofElement codec element arguments named = .ok call) : call.element = element := by
  cases raw : element.takesRawData with
  | true =>
    simp only [ofElement, raw, ↓reduceIte, Except.ok.injEq] at made
    rw [← made]
  | false =>
    obtain ⟨_, _, _, -, -, rfl⟩ := (ofElement_eq_ok_iff raw).1 made
    rfl

theorem ofElement_eq_ok {codec : Codec} {arranged aligned : List Argument} {types : List String}
    (loose : element.takesRawData = false)
    (arranges : codec.arrange element arguments named = .ok arranged)
    (aligns : codec.align element arranged = .ok (types, aligned)) :
    ofElement codec element arguments named =
      .ok ⟨element, codec.selector? element, types, aligned⟩ :=
  (ofElement_eq_ok_iff loose).2 ⟨arranged, types, aligned, arranges, aligns, rfl⟩

/-- Arguments that an element takes make a resolved call to it, with the canonical types of the
inputs and an argument for each of them that can be coerced. -/
theorem ofElement_of_verdict (loose : element.takesRawData = false)
    (taken : (Codec.standard strict room).verdict arguments named element = .ok true) :
    ∃ call, ofElement (Codec.standard strict room) element arguments named = .ok call ∧
      call.element = element ∧ call.selector? = element.selector? ∧
      call.types = element.inputTypes ∧ call.arguments.length = call.types.length ∧
      ∀ entry ∈ call.types.zip call.arguments,
        ((Codec.standard strict room).coerce entry.1 entry.2).isSome = true := by
  obtain ⟨arranged, types, aligned, arranges, -, aligns, able⟩ :=
    (Codec.verdict_eq_ok_true_iff loose).1 taken
  obtain ⟨-, rfl, -, -⟩ := Element.align_eq_ok_iff.1 aligns
  exact ⟨_, ofElement_eq_ok loose arranges aligns, rfl, rfl, rfl, Element.length_of_align aligns,
    able⟩

/-- A call whose arguments can be coerced is encoded in whole words behind its selector. -/
theorem encodeInput_of_coerced {call : ResolvedCall} {selector : Selector}
    (selects : call.selector? = some selector)
    (counted : call.arguments.length = call.types.length)
    (coerced : ∀ entry ∈ call.types.zip call.arguments,
      ((Codec.standard strict room).coerce entry.1 entry.2).isSome = true) :
    ∃ body, call.encodeInput (Codec.standard strict room) = .ok (selector.1 ++ body) ∧
      32 ∣ body.length := by
  obtain ⟨values, each⟩ := exists_coerced coerced
  have encoded : (Codec.standard strict room).encode call.types call.arguments =
      .ok (Value.encodeSequence values) :=
    encodeArguments_eq_ok_iff.2 ⟨counted.symm, values, each, rfl⟩
  refine ⟨Value.encodeSequence values, ?_, Value.dvd_length_encodeSequence values⟩
  simp only [encodeInput, selects, encoded, Outcome.map_ok, Option.map_some, Option.getD_some]

end ResolvedCall

namespace Interface

variable {interface : Interface} {strict : Bool} {room : Nat} {name : String}
  {arguments : List Argument} {named : NamedArguments} {element : Element}

/-- A call is resolved when the lookup gives an element and the arguments make a call to it. -/
theorem resolve_eq_ok_iff {codec : Codec} {identifier : Identifier} {call : ResolvedCall} :
    (interface.resolve codec identifier arguments named).result = .ok call ↔
      ∃ element, (interface.findElement codec identifier arguments named).result = .ok element ∧
        ResolvedCall.ofElement codec element arguments named = .ok call := by
  simp only [resolve, Probed.result_map, Outcome.bind_eq_ok, Outcome.mapError_eq_ok]

/-- The candidates are the elements of the name with as many inputs as arguments were supplied. -/
theorem mem_candidates_iff :
    element ∈ interface.candidates name arguments named ↔
      element ∈ interface.elements ∧ element.kind.isNamed = true ∧ element.name? = some name ∧
        element.inputCount = arguments.length + named.size := by
  simp only [candidates, ofArity, Interface.named, List.mem_filter, Bool.and_eq_true,
    decide_eq_true_eq, and_assoc]

/-- The candidates take arguments. -/
theorem takesRawData_of_mem_candidates
    (candidate : element ∈ interface.candidates name arguments named) :
    element.takesRawData = false :=
  Element.takesRawData_of_isNamed (mem_candidates_iff.1 candidate).2.1

/-- Candidates of a call without arguments have no inputs. -/
theorem inputCount_of_mem_candidates (noneNamed : named.entries = [])
    (candidate : element ∈ interface.candidates name [] named) : element.inputCount = 0 := by
  obtain ⟨-, -, -, counted⟩ := mem_candidates_iff.1 candidate
  simpa [NamedArguments.size, noneNamed] using counted

/-- When candidates have to be told apart, one is found if all are answered and it takes the
arguments alone. -/
theorem findByName_eq_ok_iff_of_not_only {codec : Codec}
    (slow : ¬(arguments = [] ∧ named.entries = [] ∧
      (interface.candidates name arguments named).length = 1)) :
    (interface.findByName codec name arguments named).result = .ok element ↔
      (∀ candidate ∈ interface.candidates name arguments named,
        codec.Answers arguments named candidate) ∧
      (interface.candidates name arguments named).filter (codec.takes arguments named) =
        [element] := by
  rw [findByName_of_not_only slow, Probed.result_map, choose_eq_ok_iff, Codec.encodable_eq_ok_iff,
    eq_comm (a := [element])]

/-- An element that a lookup gives is a candidate. It takes the arguments, unless there are none and
it was not asked about. -/
theorem mem_candidates_of_findByName {codec : Codec}
    (found : (interface.findByName codec name arguments named).result = .ok element) :
    element ∈ interface.candidates name arguments named ∧
      (arguments = [] ∧ named.entries = [] ∨
        codec.verdict arguments named element = .ok true) := by
  by_cases slow : arguments = [] ∧ named.entries = [] ∧
      (interface.candidates name arguments named).length = 1
  · obtain ⟨noArguments, noneNamed, single⟩ := slow
    obtain ⟨only, isOnly⟩ := List.length_eq_one_iff.1 single
    rw [findByName_of_only noArguments noneNamed isOnly] at found
    obtain rfl : only = element := by simpa using found
    exact ⟨by simp [isOnly], .inl ⟨noArguments, noneNamed⟩⟩
  · obtain ⟨-, only⟩ := (findByName_eq_ok_iff_of_not_only slow).1 found
    have member : element ∈ (interface.candidates name arguments named).filter
        (codec.takes arguments named) := by simp [only]
    obtain ⟨candidate, taken⟩ := List.mem_filter.1 member
    exact ⟨candidate, .inr (Codec.takes_eq_true.1 taken)⟩

/-- An element that a lookup gives takes the arguments, also when it was not asked about. -/
theorem verdict_of_findByName
    (found : (interface.findByName (Codec.standard strict room) name arguments named).result =
      .ok element) :
    element ∈ interface.candidates name arguments named ∧
      (Codec.standard strict room).verdict arguments named element = .ok true := by
  obtain ⟨candidate, ⟨rfl, noneNamed⟩ | taken⟩ := mem_candidates_of_findByName found
  · have noInputs : element.inputCount = 0 := inputCount_of_mem_candidates noneNamed candidate
    refine ⟨candidate, ?_⟩
    rw [Codec.verdict, Codec.canEncode_of_no_inputs rfl rfl noneNamed noInputs,
      Probed.result_unprobed]
  · exact ⟨candidate, taken⟩

/-- When the lookup of an ordinary name gives an element, arranging and aligning the arguments once
more makes a call to it that is ready for encoding. -/
theorem exists_readyFor_of_findElement (ordinary : Identifier.IsOrdinary name)
    (found : (interface.findElement (.standard strict room) (.name name) arguments named).result =
      .ok element) :
    ∃ call, (interface.resolve (.standard strict room) (.name name) arguments named).result =
        .ok call ∧
      call.element = element ∧
      call.ReadyFor interface (.standard strict room) name (arguments.length + named.size) := by
  have byName := findElement_eq_findByName ordinary ▸ found
  obtain ⟨candidate, taken⟩ := verdict_of_findByName byName
  obtain ⟨declared, namedKind, sameName, counted⟩ := mem_candidates_iff.1 candidate
  obtain ⟨call, makesCall, rfl, sameSelector, types, argumentCount, coerced⟩ :=
    ResolvedCall.ofElement_of_verdict (Element.takesRawData_of_isNamed namedKind) taken
  have selects : call.element.selector? =
      some (Selector.ofHash (signatureHash name call.element.inputs)) := by
    rw [Element.selector?, sameName, Option.map_some]
  obtain ⟨body, encoded, whole⟩ :=
    ResolvedCall.encodeInput_of_coerced (sameSelector.trans selects) argumentCount coerced
  exact ⟨call, resolve_eq_ok_iff.2 ⟨_, found, makesCall⟩, rfl, declared, namedKind, sameName,
    counted, types, argumentCount, coerced, _, body, sameSelector.trans selects, selects, encoded,
    whole⟩

/-- Resolution of an ordinary name is sound and ready for encoding. A resolved call goes to the
element that the lookup gives, under its name and with as many inputs as arguments were supplied;
its arguments can be coerced at the canonical types of the inputs and are encoded in whole words
behind the selector. Nothing else can go wrong: resolution fails exactly as the lookup does. -/
theorem resolve_sound (strict : Bool) (room : Nat) (interface : Interface) {name : String}
    (ordinary : Identifier.IsOrdinary name) (arguments : List Argument) (named : NamedArguments) :
    let codec := Codec.standard strict room
    let found := (interface.findElement codec (.name name) arguments named).result
    let resolved := (interface.resolve codec (.name name) arguments named).result
    (∀ call, resolved = .ok call → found = .ok call.element ∧
      call.ReadyFor interface codec name (arguments.length + named.size)) ∧
    ∀ error, resolved = .error error ↔ found = .error error := by
  intro codec found resolved
  have steps : resolved = found >>= fun element =>
      (ResolvedCall.ofElement codec element arguments named).mapError .encoding := rfl
  cases outcome : found with
  | error fault => simp [steps, outcome]
  | ok element =>
    obtain ⟨call, resolves, rfl, ready⟩ := exists_readyFor_of_findElement ordinary outcome
    have isCall : resolved = .ok call := resolves
    rw [isCall]
    refine ⟨?_, by simp⟩
    rintro other ⟨⟩
    exact ⟨rfl, ready⟩

/-- A list of tuples by position, one of them by the names of its components, and a truth value by
name resolve to the overload for them, beside overloads for a single tuple and for nothing. -/
theorem resolve_sound_of_pairs :
    let pairs : Param :=
      ⟨"pairs", "tuple[]", [⟨"x", "bool", [], none⟩, ⟨"y", "bytes", [], none⟩], none⟩
    let flag : Param := ⟨"flag", "bool", [], none⟩
    let function : Element := .function ⟨"f", [pairs, flag], [], .nonPayable⟩
    let other : Element :=
      .function ⟨"f", [⟨"single", "tuple", [flag], none⟩, flag], [], .nonPayable⟩
    let nullary : Element := .function ⟨"f", [], [], .nonPayable⟩
    let interface : Interface := ⟨[other, function, nullary]⟩
    let pair : Argument := .list [.bool false, .bytes []]
    let arguments : List Argument :=
      [.list [.map [("x", .bool true), ("y", .bytes [1])], pair]]
    let named := NamedArguments.ofList [("flag", .bool true)]
    Identifier.IsOrdinary "f" ∧ ∃ call,
      (interface.resolve (.standard true 4096) (.name "f") arguments named).result = .ok call ∧
      call.element = function ∧
      call.arguments = [.list [.list [.bool true, .bytes [1]], pair], .bool true] ∧
      call.ReadyFor interface (.standard true 4096) "f" 2 := by
  intro pairs flag function other nullary interface pair arguments named
  have ordinary : Identifier.IsOrdinary "f" := by decide
  let codec := Codec.standard true 4096
  let types := ["(bool,bytes)[]", "bool"]
  let arranged : List Argument := arguments ++ [.bool true]
  let aligned : List Argument := [.list [.list [.bool true, .bytes [1]], pair], .bool true]
  have found : (interface.findElement codec (.name "f") arguments named).result = .ok function := by
    cbv
  have arranges : codec.arrange function arguments named = .ok arranged := by cbv
  have aligns : codec.align function arranged = .ok (types, aligned) := by cbv
  have made : ResolvedCall.ofElement codec function arguments named = _ :=
    ResolvedCall.ofElement_eq_ok rfl arranges aligns
  have resolved := resolve_eq_ok_iff.2 ⟨function, found, made⟩
  obtain ⟨ready, -⟩ := resolve_sound true 4096 interface ordinary arguments named
  exact ⟨ordinary, _, resolved, rfl, rfl, (ready _ resolved).2⟩

end Interface

end ContractAbi
