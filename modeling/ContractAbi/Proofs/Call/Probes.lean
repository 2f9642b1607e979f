import ContractAbi.Proofs.Call.Soundness

/-!
# Probes of a lookup

A lookup keeps a log of the types that it asks the codec about. The log is made of what each
candidate contributes (`Codec.contribution`), in declared order, up to the first candidate with a
fault (`Interface.probes_findElement`). It leaves nothing out: a codec that gives the same answers
about the types of the log makes every lookup end alike (`Interface.findElement_answering`).
-/

namespace ContractAbi

namespace Codec

variable (codec : Codec) (arguments : List Argument) (named : NamedArguments)

/-- The types up to the first at which its argument cannot be encoded, or all of them. -/
def probedTypes (types : List String) (aligned : List Argument) : List String :=
  types.take ((List.zipWith codec.isEncodable types aligned).idxOf false + 1)

/-- The types that are probed for an element: none when the arguments cannot be arranged, are not as
many as the inputs then, or cannot be aligned. -/
def contribution (element : Element) : List String :=
  match codec.arrange element arguments named with
  | .error _ => []
  | .ok arranged =>
    if arranged.length = element.inputCount then
      match codec.align element arranged with
      | .error _ => []
      | .ok (types, aligned) => codec.probedTypes types aligned
    else []

/-- Arranging the arguments for an element, or aligning them, fails with something other than an
ordinary mismatch. -/
def HasFault (element : Element) (error : EncodingError) : Prop :=
  error.isMismatch = false ∧
    (codec.arrange element arguments named = .error error ∨
      ∃ arranged, codec.arrange element arguments named = .ok arranged ∧
        arranged.length = element.inputCount ∧ codec.align element arranged = .error error)

/-- The candidates in front of the first one with a fault, or all of them. -/
inductive Searched : (candidates searched : List Element) → Prop where
  | whole {candidates : List Element}
    (sound : ∀ element ∈ candidates, ∀ error, ¬codec.HasFault arguments named element error) :
    Searched candidates candidates
  | broken {before after : List Element} {element : Element} {error : EncodingError}
    (sound : ∀ other ∈ before, ∀ error, ¬codec.HasFault arguments named other error)
    (fault : codec.HasFault arguments named element error) :
    Searched (before ++ element :: after) before

/-- The codec with other answers to whether an argument can be encoded. -/
def answering (answers : String → Argument → Bool) : Codec :=
  { codec with isEncodable := answers }

variable {codec arguments named} {element : Element} {elements : List Element}
  {answers : String → Argument → Bool}

/-! ## The log -/

/-- Arguments are probed up to the first that cannot be encoded. -/
theorem probes_probeEach {types : List String} {aligned : List Argument}
    (counted : aligned.length = types.length) :
    (codec.probeEach (types.zip aligned)).probes = codec.probedTypes types aligned := by
  induction types generalizing aligned with
  | nil => rfl
  | cons type types inductionHypothesis =>
    cases aligned with
    | nil => cases counted
    | cons argument aligned =>
      have others := inductionHypothesis (Nat.succ.inj counted)
      cases able : codec.isEncodable type argument with
      | true => simp [probeEach, probedTypes, able, others]
      | false => simp [probeEach, probedTypes, able]

/-- A candidate is probed for its contribution. -/
theorem probes_canEncode (aligns : codec.align = Element.align)
    (loose : element.takesRawData = false) :
    (codec.canEncode element arguments named).probes =
      codec.contribution arguments named element := by
  simp only [canEncode, loose, Bool.false_eq_true, ↓reduceIte, contribution]
  cases codec.arrange element arguments named with
  | error error => rfl
  | ok arranged =>
    by_cases counted : arranged.length = element.inputCount
    · cases aligned : codec.align element arranged with
      | error error => simp [counted, aligned]
      | ok result =>
        obtain ⟨types, values⟩ := result
        rw [aligns] at aligned
        simp [counted, aligns, aligned, probes_probeEach (Element.length_of_align aligned)]
    · simp [counted]

theorem contribution_of_hasFault {error : EncodingError}
    (fault : codec.HasFault arguments named element error) :
    codec.contribution arguments named element = [] := by
  obtain ⟨-, unarranged | ⟨arranged, arranges, counted, unaligned⟩⟩ := fault
  · simp [contribution, unarranged]
  · simp [contribution, arranges, counted, unaligned]

/-- What is probed for an element is one of its canonical input types. -/
theorem mem_inputTypes_of_contribution (aligns : codec.align = Element.align) {type : String}
    (probed : type ∈ codec.contribution arguments named element) : type ∈ element.inputTypes := by
  unfold contribution at probed
  split at probed
  · cases probed
  · split at probed
    · split at probed
      · cases probed
      · next types aligned result =>
        rw [aligns] at result
        obtain ⟨-, rfl, -⟩ := Element.align_eq_ok_iff.1 result
        exact List.mem_of_mem_take probed
    · cases probed

theorem answers_iff_no_fault (loose : element.takesRawData = false) :
    codec.Answers arguments named element ↔
      ∀ error, ¬codec.HasFault arguments named element error := by
  have fails (error : EncodingError) :
      codec.verdict arguments named element = .error error ↔
        codec.HasFault arguments named element error := verdict_eq_error_iff loose
  simp only [← fails, Answers]
  cases codec.verdict arguments named element <;> simp

/-- Candidates that are answered all contribute before the search goes on. -/
theorem probes_encodable_append (aligns : codec.align = Element.align) {before : List Element}
    (loose : ∀ element ∈ before, element.takesRawData = false)
    (answered : ∀ element ∈ before, codec.Answers arguments named element)
    (after : List Element) :
    (codec.encodable arguments named (before ++ after)).probes =
      before.flatMap (codec.contribution arguments named) ++
        (codec.encodable arguments named after).probes := by
  induction before with
  | nil => rfl
  | cons element before inductionHypothesis =>
    obtain ⟨looseFirst, looseOthers⟩ := List.forall_mem_cons.1 loose
    obtain ⟨⟨taken, answer⟩, answeredOthers⟩ := List.forall_mem_cons.1 answered
    rw [verdict] at answer
    rw [List.cons_append, encodable, Probed.probes_andThen, answer, Probed.probes_map,
      inductionHypothesis looseOthers answeredOthers, probes_canEncode aligns looseFirst,
      List.flatMap_cons, List.append_assoc]

/-- A search is logged as the contributions of the candidates in front of the first fault. -/
theorem Searched.probes_encodable (aligns : codec.align = Element.align)
    {candidates searched : List Element}
    (loose : ∀ element ∈ candidates, element.takesRawData = false)
    (isSearched : codec.Searched arguments named candidates searched) :
    (codec.encodable arguments named candidates).probes =
      searched.flatMap (codec.contribution arguments named) := by
  cases isSearched with
  | whole sound =>
    have answered : ∀ element ∈ candidates, codec.Answers arguments named element :=
      fun element member => (answers_iff_no_fault (loose element member)).2 (sound element member)
    have all := probes_encodable_append aligns loose answered []
    rw [List.append_nil] at all
    rw [all]
    exact List.append_nil _
  | @broken _ after element error sound fault =>
    obtain ⟨looseBefore, looseOthers⟩ := List.forall_mem_append.1 loose
    have looseFaulty := looseOthers element List.mem_cons_self
    have answered : ∀ other ∈ searched, codec.Answers arguments named other :=
      fun other member =>
        (answers_iff_no_fault (looseBefore other member)).2 (sound other member)
    have failed : (codec.canEncode element arguments named).result = .error error :=
      (verdict_eq_error_iff looseFaulty).2 fault
    rw [probes_encodable_append aligns looseBefore answered, encodable, Probed.probes_andThen,
      failed, probes_canEncode aligns looseFaulty, contribution_of_hasFault fault]
    simp

/-- Every search ends at a first fault or goes through all candidates. -/
theorem exists_searched (codec : Codec) (arguments : List Argument) (named : NamedArguments)
    (candidates : List Element) :
    ∃ searched, codec.Searched arguments named candidates searched := by
  induction candidates with
  | nil => exact ⟨[], .whole (by simp)⟩
  | cons first others inductionHypothesis =>
    by_cases faulty : ∃ error, codec.HasFault arguments named first error
    · obtain ⟨error, fault⟩ := faulty
      exact ⟨[], .broken (List.forall_mem_nil _) fault⟩
    · have soundFirst := not_exists.1 faulty
      obtain ⟨searched, isSearched⟩ := inductionHypothesis
      cases isSearched with
      | whole sound => exact ⟨_, .whole (List.forall_mem_cons.2 ⟨soundFirst, sound⟩)⟩
      | broken sound fault =>
        exact ⟨first :: searched, .broken (List.forall_mem_cons.2 ⟨soundFirst, sound⟩) fault⟩

theorem Searched.subset {candidates searched : List Element}
    (isSearched : codec.Searched arguments named candidates searched) : searched ⊆ candidates := by
  cases isSearched with
  | whole => exact List.Subset.refl _
  | broken => exact List.subset_append_left _ _

/-! ## Nothing is asked beside the log -/

@[simp] theorem arrange_answering (codec : Codec) (answers : String → Argument → Bool) :
    (codec.answering answers).arrange = codec.arrange := rfl

@[simp] theorem align_answering (codec : Codec) (answers : String → Argument → Bool) :
    (codec.answering answers).align = codec.align := rfl

@[simp] theorem isEncodable_answering (codec : Codec) (answers : String → Argument → Bool) :
    (codec.answering answers).isEncodable = answers := rfl

/-- Answers that agree about the probed types change nothing for a list of arguments. -/
theorem probeEach_answering {entries : List (String × Argument)}
    (agree : ∀ type ∈ (codec.probeEach entries).probes, ∀ argument,
      answers type argument = codec.isEncodable type argument) :
    (codec.answering answers).probeEach entries = codec.probeEach entries := by
  induction entries with
  | nil => rfl
  | cons entry entries inductionHypothesis =>
    obtain ⟨type, argument⟩ := entry
    have same : answers type argument = codec.isEncodable type argument := by
      refine agree type ?_ argument
      rw [probeEach]
      split <;> simp
    cases able : codec.isEncodable type argument with
    | true =>
      have others : (codec.answering answers).probeEach entries = codec.probeEach entries := by
        apply inductionHypothesis
        intro other probed
        exact agree other (by simp [probeEach, able, probed])
      simp [probeEach, same, able, others]
    | false => simp [probeEach, same, able]

/-- Answers that agree about the types probed for an element change nothing for it. -/
theorem canEncode_answering
    (agree : ∀ type ∈ (codec.canEncode element arguments named).probes, ∀ argument,
      answers type argument = codec.isEncodable type argument) :
    (codec.answering answers).canEncode element arguments named =
      codec.canEncode element arguments named := by
  cases raw : element.takesRawData with
  | true => simp [canEncode, raw]
  | false =>
    simp only [canEncode, raw, Bool.false_eq_true, ↓reduceIte, arrange_answering,
      align_answering] at agree ⊢
    cases arranges : codec.arrange element arguments named with
    | error error => rfl
    | ok arranged =>
      by_cases counted : arranged.length = element.inputCount
      · cases aligns : codec.align element arranged with
        | error error => simp [aligns]
        | ok result =>
          simp only [arranges, counted, aligns, ne_eq, not_true_eq_false, ↓reduceIte,
            Probed.probes_map] at agree
          simp only [aligns, probeEach_answering agree]
      · simp [counted]

/-- Answers that agree about the types probed in a search change nothing for it. -/
theorem encodable_answering
    (agree : ∀ type ∈ (codec.encodable arguments named elements).probes, ∀ argument,
      answers type argument = codec.isEncodable type argument) :
    (codec.answering answers).encodable arguments named elements =
      codec.encodable arguments named elements := by
  induction elements with
  | nil => rfl
  | cons element elements inductionHypothesis =>
    rw [encodable, Probed.probes_andThen, List.forall_mem_append] at agree
    obtain ⟨agreeFirst, agreeOthers⟩ := agree
    rw [encodable, encodable, canEncode_answering agreeFirst]
    simp only [Probed.andThen]
    cases answer : (codec.canEncode element arguments named).result with
    | error error => rfl
    | ok taken =>
      rw [answer] at agreeOthers
      rw [inductionHypothesis agreeOthers]

end Codec

namespace Interface

variable {interface : Interface} {codec : Codec} {name : String} {arguments : List Argument}
  {named : NamedArguments} {answers : String → Argument → Bool}

/-- Nothing is probed for a call without arguments that has only one candidate. -/
theorem probes_findByName_of_only (noArguments : arguments = []) (noneNamed : named.entries = [])
    (single : (interface.candidates name arguments named).length = 1) :
    (interface.findByName codec name arguments named).probes = [] := by
  obtain ⟨element, only⟩ := List.length_eq_one_iff.1 single
  rw [findByName_of_only noArguments noneNamed only, Probed.probes_unprobed]

/-- Every other lookup by name is logged as the search through its candidates. -/
theorem probes_findByName_of_not_only
    (slow : ¬(arguments = [] ∧ named.entries = [] ∧
      (interface.candidates name arguments named).length = 1)) :
    (interface.findByName codec name arguments named).probes =
      (codec.encodable arguments named (interface.candidates name arguments named)).probes := by
  rw [findByName_of_not_only slow, Probed.probes_map]

/-- The types that are probed belong to elements of the name and the arity. -/
theorem exists_named_of_mem_probes (aligns : codec.align = Element.align) {type : String}
    (probed : type ∈ (interface.findByName codec name arguments named).probes) :
    ∃ element ∈ interface.named name,
      element.inputCount = arguments.length + named.size ∧ type ∈ element.inputTypes := by
  by_cases fast : arguments = [] ∧ named.entries = [] ∧
      (interface.candidates name arguments named).length = 1
  · rw [probes_findByName_of_only fast.1 fast.2.1 fast.2.2] at probed
    cases probed
  · obtain ⟨searched, isSearched⟩ := Codec.exists_searched codec arguments named
      (interface.candidates name arguments named)
    rw [probes_findByName_of_not_only fast,
      isSearched.probes_encodable aligns fun _ => takesRawData_of_mem_candidates] at probed
    obtain ⟨element, member, contributed⟩ := List.mem_flatMap.1 probed
    obtain ⟨isNamed, counted⟩ := List.mem_filter.1 (isSearched.subset member)
    exact ⟨element, isNamed, of_decide_eq_true counted,
      Codec.mem_inputTypes_of_contribution aligns contributed⟩

/-- Answers that agree about the types in the log of a lookup change neither its end nor its log. -/
theorem findElement_answering {identifier : Identifier}
    (agree : ∀ type ∈ (interface.findElement codec identifier arguments named).probes, ∀ argument,
      answers type argument = codec.isEncodable type argument) :
    interface.findElement (codec.answering answers) identifier arguments named =
      interface.findElement codec identifier arguments named := by
  unfold findElement at agree ⊢
  cases place : identifier.lookup with
  | nowhere => rfl
  | ofKind kind => rfl
  | ofName name =>
    simp only [place] at agree ⊢
    by_cases fast : arguments = [] ∧ named.entries = [] ∧
        (interface.candidates name arguments named).length = 1
    · obtain ⟨noArguments, noneNamed, single⟩ := fast
      obtain ⟨element, only⟩ := List.length_eq_one_iff.1 single
      rw [findByName_of_only noArguments noneNamed only,
        findByName_of_only noArguments noneNamed only]
    · rw [probes_findByName_of_not_only fast] at agree
      rw [findByName_of_not_only fast, findByName_of_not_only fast,
        Codec.encodable_answering agree]

/-- What a lookup asks its codec. Nothing is probed for an identifier that is no ordinary name, nor
for a call without arguments when one element of the name takes none. In every other case the log is
made of the contributions of the candidates, which all have the name and the arity, in declared
order up to the first one with a fault. Resolution adds nothing to it, and the codec is asked about
nothing else: other answers about types that are not in the log make no difference. -/
theorem probes_findElement {codec : Codec} (aligns : codec.align = Element.align)
    (interface : Interface) (identifier : Identifier) (arguments : List Argument)
    (named : NamedArguments) :
    let log := (interface.findElement codec identifier arguments named).probes
    ((∀ name, identifier = .name name → ¬Identifier.IsOrdinary name) → log = []) ∧
    (∀ name, identifier = .name name → Identifier.IsOrdinary name →
      let candidates := interface.candidates name arguments named
      (arguments = [] → named.entries = [] → candidates.length = 1 → log = []) ∧
      (¬(arguments = [] ∧ named.entries = [] ∧ candidates.length = 1) →
        (∃ searched, codec.Searched arguments named candidates searched) ∧
        ∀ searched, codec.Searched arguments named candidates searched →
          log = searched.flatMap (codec.contribution arguments named)) ∧
      ∀ type ∈ log, ∃ element ∈ interface.named name,
        element.inputCount = arguments.length + named.size ∧ type ∈ element.inputTypes) ∧
    (interface.resolve codec identifier arguments named).probes = log ∧
    ∀ answers : String → Argument → Bool,
      (∀ type ∈ log, ∀ argument, answers type argument = codec.isEncodable type argument) →
      interface.findElement (codec.answering answers) identifier arguments named =
        interface.findElement codec identifier arguments named ∧
      interface.resolve (codec.answering answers) identifier arguments named =
        interface.resolve codec identifier arguments named := by
  intro log
  refine ⟨?_, ?_, rfl, ?_⟩
  · intro noName
    simp only [log, findElement]
    split
    · rfl
    · rfl
    · next name isName =>
      obtain ⟨same, ordinary⟩ := (Identifier.lookup_eq_ofName_iff _ _).1 isName
      exact absurd ordinary (noName name same)
  · rintro name rfl ordinary candidates
    have byName : log = (interface.findByName codec name arguments named).probes := by
      simp only [log, findElement_eq_findByName ordinary]
    rw [byName]
    refine ⟨probes_findByName_of_only, ?_, fun type => exists_named_of_mem_probes aligns⟩
    intro slow
    refine ⟨Codec.exists_searched codec arguments named candidates, ?_⟩
    intro searched isSearched
    rw [probes_findByName_of_not_only slow]
    exact isSearched.probes_encodable aligns fun _ => takesRawData_of_mem_candidates
  · intro answers agree
    have same := findElement_answering agree
    refine ⟨same, ?_⟩
    rw [resolve, resolve, same]
    rfl

/-- Of three candidates in front of one with an unknown type, the first is probed at both of its
inputs, the second at its first input only, and the third, which has no alignment, not at all. -/
theorem probes_findElement_of_overloads :
    let bool : Param := ⟨"a", "bool", [], none⟩
    let whole : Element := .function ⟨"f", [bool, ⟨"b", "bytes", [], none⟩], [], .nonPayable⟩
    let refused : Element :=
      .event ⟨"f", [⟨⟨"a", "string", [], none⟩, false⟩, ⟨bool, false⟩], false⟩
    let unaligned : Element := .error ⟨"f", [⟨"a", "tuple", [bool], none⟩, bool]⟩
    let broken : Element := .error ⟨"f", [⟨"a", "foo", [], none⟩, bool]⟩
    let behind : Element := .function ⟨"f", [bool, bool], [], .nonPayable⟩
    let others : List Element :=
      [.function ⟨"f", [bool], [], .nonPayable⟩, .function ⟨"g", [bool, bool], [], .nonPayable⟩]
    let interface : Interface := ⟨whole :: others ++ [refused, unaligned, broken, behind]⟩
    let arguments : List Argument := [.bool true, .bytes [1]]
    (Codec.standard true 4096).align = Element.align ∧ Identifier.IsOrdinary "f" ∧
    (interface.findElement (.standard true 4096) (.name "f") arguments .empty).probes =
      ["bool", "bytes", "string"] ∧
    (interface.resolve (.standard true 4096) (.name "f") arguments .empty).probes =
      ["bool", "bytes", "string"] := by
  intro bool whole refused unaligned broken behind others interface arguments
  have aligns : (Codec.standard true 4096).align = Element.align := rfl
  have ordinary : Identifier.IsOrdinary "f" := by decide
  obtain ⟨-, byName, sameLog, -⟩ :=
    probes_findElement aligns interface (.name "f") arguments .empty
  obtain ⟨-, slow, -⟩ := byName "f" rfl ordinary
  obtain ⟨-, log⟩ := slow (by simp [arguments])
  have fitting : interface.candidates "f" arguments .empty =
      [whole, refused, unaligned] ++ broken :: [behind] := by decide
  have taken : (Codec.standard true 4096).verdict arguments .empty whole = .ok true := by cbv
  have misshapen : (Codec.standard true 4096).verdict arguments .empty unaligned = .ok false := by
    cbv
  have noText : (Codec.standard true 4096).isEncodable "string" (.bool true) = false := by cbv
  have aligned : (Codec.standard true 4096).align refused arguments =
      .ok (["string", "bool"], arguments) := by cbv
  have arranged : (Codec.standard true 4096).arrange refused arguments .empty = .ok arguments := rfl
  have passedOver : (Codec.standard true 4096).verdict arguments .empty refused = .ok false := by
    simp only [Codec.verdict, Codec.canEncode, arranged, aligned]
    simp [arguments, refused, Codec.probeEach, noText, Element.takesRawData, Element.inputCount,
      Element.inputs, Event.params]
  have contributed : [whole, refused, unaligned].flatMap
      ((Codec.standard true 4096).contribution arguments .empty) =
        ["bool", "bytes", "string"] := by cbv
  have answered : ∀ element ∈ [whole, refused, unaligned],
      (Codec.standard true 4096).Answers arguments .empty element := by
    simp only [List.forall_mem_cons, List.not_mem_nil, false_implies, implies_true, and_true]
    exact ⟨⟨true, taken⟩, ⟨false, passedOver⟩, ⟨false, misshapen⟩⟩
  have unanswered : (Codec.standard true 4096).verdict arguments .empty broken =
      .error (.invalidType "foo" (.unknownName "foo")) := by cbv
  have fault : (Codec.standard true 4096).HasFault arguments .empty broken
      (.invalidType "foo" (.unknownName "foo")) := (Codec.verdict_eq_error_iff rfl).1 unanswered
  have sound : ∀ element ∈ [whole, refused, unaligned], ∀ error,
      ¬(Codec.standard true 4096).HasFault arguments .empty element error := by
    intro element member
    have candidate : element ∈ interface.candidates "f" arguments .empty := by
      rw [fitting]
      exact List.mem_append_left _ member
    exact (Codec.answers_iff_no_fault (takesRawData_of_mem_candidates candidate)).1
      (answered element member)
  have logged := log [whole, refused, unaligned] (fitting ▸ .broken sound fault)
  rw [contributed] at logged
  exact ⟨aligns, ordinary, logged, sameLog.trans logged⟩

end Interface

end ContractAbi
