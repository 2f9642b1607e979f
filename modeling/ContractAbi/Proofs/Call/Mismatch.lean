import ContractAbi.Proofs.Call.Arrangement
import ContractAbi.Proofs.Call.Soundness

/-!
# Mismatches and broken declarations

Inputs are checked one after the other, each for its type and then for the shape of its argument,
and the first fault decides (`Alignment.alignInputs_eq_error_iff`). A shape that does not fit is
always an ordinary mismatch, so a type text that stands for no type is reported exactly when the
arguments in front of it fit (`Codec.canEncode_of_unparsable`).
-/

namespace ContractAbi

namespace Alignment

/-! ## Shapes that do not fit -/

theorem isMismatch_of_takeComponents {type : String} {components : List Param}
    {entries : List (String × Argument)} {error : EncodingError}
    (failed : takeComponents type components entries = .error error) :
    error.isMismatch = true := by
  induction components generalizing entries with
  | nil =>
    cases entries with
    | nil => cases failed
    | cons entry entries =>
      cases failed
      rfl
  | cons component components inductionHypothesis =>
    simp only [takeComponents] at failed
    split at failed
    · cases failed
      rfl
    · exact inductionHypothesis (Outcome.map_eq_error.1 failed)

theorem isMismatch_of_componentValues {type : String} {components : List Param}
    {argument : Argument} {error : EncodingError}
    (failed : componentValues type components argument = .error error) :
    error.isMismatch = true := by
  cases argument with
  | list items =>
    simp only [componentValues] at failed
    split at failed
    · cases failed
    · cases failed
      rfl
  | map entries => exact isMismatch_of_takeComponents failed
  | _ =>
    cases failed
    rfl

/-- When items are not all aligned, one of them is not. -/
theorem exists_mem_of_mapM_eq_error {step : Argument → Except EncodingError Argument}
    {items : List Argument} {error : EncodingError} (failed : items.mapM step = .error error) :
    ∃ item ∈ items, step item = .error error := by
  induction items with
  | nil => cases failed
  | cons item items inductionHypothesis =>
    rw [List.mapM_cons, Outcome.bind_eq_error] at failed
    rcases failed with first | ⟨_, -, rest⟩
    · exact ⟨item, List.mem_cons_self, first⟩
    · rcases Outcome.bind_eq_error.1 rest with others | ⟨_, -, impossible⟩
      · obtain ⟨other, member, otherFailed⟩ := inductionHypothesis others
        exact ⟨other, List.mem_cons_of_mem _ member, otherFailed⟩
      · cases impossible

theorem isMismatch_of_alignLevels {type : String}
    {leaf : Argument → Except EncodingError Argument}
    (below : ∀ {argument error}, leaf argument = .error error → error.isMismatch = true)
    {levels : Nat} {argument : Argument} {error : EncodingError}
    (failed : alignLevels type leaf levels argument = .error error) :
    error.isMismatch = true := by
  induction levels generalizing argument with
  | zero => exact below failed
  | succ levels inductionHypothesis =>
    cases argument with
    | list items =>
      obtain ⟨item, -, itemFailed⟩ :=
        exists_mem_of_mapM_eq_error (Outcome.map_eq_error.1 failed)
      exact inductionHypothesis itemFailed
    | _ =>
      cases failed
      rfl

theorem isMismatch_of_alignEach {params : List Param}
    (each : ∀ param ∈ params, ∀ {argument error},
      align param argument = .error error → error.isMismatch = true)
    {arguments : List Argument} {error : EncodingError}
    (failed : alignEach params arguments = .error error) : error.isMismatch = true := by
  induction params generalizing arguments with
  | nil => cases failed
  | cons param params inductionHypothesis =>
    obtain ⟨first, others⟩ := List.forall_mem_cons.1 each
    cases arguments with
    | nil => cases failed
    | cons argument arguments =>
      rcases Outcome.bind_eq_error.1 failed with firstFailed | ⟨_, -, rest⟩
      · exact first firstFailed
      · rcases Outcome.bind_eq_error.1 rest with othersFailed | ⟨_, -, impossible⟩
        · exact inductionHypothesis others othersFailed
        · cases impossible

/-- An argument that cannot be aligned merely does not fit its parameter. -/
theorem isMismatch_of_align {param : Param} {argument : Argument} {error : EncodingError}
    (failed : align param argument = .error error) : error.isMismatch = true := by
  induction param generalizing argument error with
  | mk name type components internalType inductionHypothesis =>
    simp only [align] at failed
    split at failed
    · cases failed
    · refine isMismatch_of_alignLevels ?_ failed
      intro argument error tupleFailed
      rcases Outcome.bind_eq_error.1 tupleFailed with miscounted | ⟨_, -, rest⟩
      · exact isMismatch_of_componentValues miscounted
      · rcases Outcome.bind_eq_error.1 rest with memberFailed | ⟨_, -, impossible⟩
        · exact isMismatch_of_alignEach inductionHypothesis memberFailed
        · cases impossible

/-! ## The first fault -/

/-- What is wrong with an input: its type text stands for no type, or else the argument does not
fit. -/
def fault? (input : Param) (argument : Argument) : Option EncodingError :=
  match AbiType.parse input.canonicalType with
  | .error fault => some (.invalidType input.canonicalType fault)
  | .ok _ =>
    match align input argument with
    | .error error => some error
    | .ok _ => none

/-- Each argument fits its input. -/
def Fit (inputs : List Param) (arguments : List Argument) : Prop :=
  ∀ entry ∈ inputs.zip arguments, ∃ aligned, align entry.1 entry.2 = .ok aligned

/-- Inputs that are no tuples fit all arguments. -/
theorem Fit.of_plain {inputs : List Param} (plain : ∀ input ∈ inputs, input.isTuple = false)
    (arguments : List Argument) : Fit inputs arguments := by
  intro entry member
  have noTuple := plain entry.1 (List.of_mem_zip member).1
  refine ⟨entry.2, ?_⟩
  obtain ⟨⟨name, type, components, internalType⟩, argument⟩ := entry
  simp only [Param.isTuple, Option.isSome_eq_false_iff, Option.isNone_iff_eq_none] at noTuple
  simp only [align, noTuple]

/-- Alignment fails with the first fault from left to right. -/
theorem alignInputs_eq_error_iff {inputs : List Param} {arguments : List Argument}
    {error : EncodingError} :
    alignInputs inputs arguments = .error error ↔
      (inputs.zip arguments).findSome? (fun entry => fault? entry.1 entry.2) = some error := by
  induction inputs generalizing arguments with
  | nil => simp [alignInputs]
  | cons input inputs inductionHypothesis =>
    cases arguments with
    | nil => simp [alignInputs]
    | cons argument arguments =>
      rw [List.zip_cons_cons, List.findSome?_cons, alignInputs, fault?]
      cases AbiType.parse input.canonicalType with
      | error fault => simp
      | ok type =>
        cases align input argument with
        | error error => simp
        | ok first => simp [Outcome.bind_eq_error, inductionHypothesis]

/-- Arguments that fit can only be held up by a text that stands for no type. -/
theorem not_isMismatch_of_fit {inputs : List Param} {arguments : List Argument}
    (fits : Fit inputs arguments) {error : EncodingError}
    (failed : alignInputs inputs arguments = .error error) : error.isMismatch = false := by
  rw [alignInputs_eq_error_iff] at failed
  obtain ⟨entry, member, faulty⟩ := List.exists_of_findSome?_eq_some failed
  obtain ⟨aligned, aligns⟩ := fits entry member
  unfold fault? at faulty
  split at faulty
  · cases faulty
    rfl
  · simp [aligns] at faulty

/-- Where the type texts stand for types, every fault is an ordinary mismatch, and there is none
exactly when the arguments fit. -/
theorem findSome?_fault?_of_parsable {inputs : List Param}
    (parsable : ∀ input ∈ inputs, ∃ type, AbiType.parse input.canonicalType = .ok type)
    (arguments : List Argument) :
    let found := (inputs.zip arguments).findSome? fun entry => fault? entry.1 entry.2
    (found = none ↔ Fit inputs arguments) ∧
      ∀ error, found = some error → error.isMismatch = true := by
  have faultOf (entry : Param × Argument) (member : entry ∈ inputs.zip arguments) :
      (fault? entry.1 entry.2 = none ↔ ∃ aligned, align entry.1 entry.2 = .ok aligned) ∧
        ∀ error, fault? entry.1 entry.2 = some error → error.isMismatch = true := by
    obtain ⟨type, parsed⟩ := parsable entry.1 (List.of_mem_zip member).1
    cases aligned : align entry.1 entry.2 with
    | ok first => simp [fault?, parsed, aligned]
    | error error =>
      have mismatch := isMismatch_of_align aligned
      simp [fault?, parsed, aligned, mismatch]
  refine ⟨?_, ?_⟩
  · rw [List.findSome?_eq_none_iff]
    exact forall_congr' fun entry => imp_congr_right fun member => (faultOf entry member).1
  · intro error found
    obtain ⟨entry, member, faulty⟩ := List.exists_of_findSome?_eq_some found
    exact (faultOf entry member).2 error faulty

/-- The fault behind inputs whose type texts stand for types, at one whose text stands for none: it
is that text when the arguments in front of it fit, and their mismatch when they do not. -/
theorem alignInputs_of_unparsable {before after : List Param} {input : Param} {fault : TypeFault}
    (parsable : ∀ earlier ∈ before, ∃ type, AbiType.parse earlier.canonicalType = .ok type)
    (unparsable : AbiType.parse input.canonicalType = .error fault) {arguments : List Argument}
    (counted : (before ++ input :: after).length = arguments.length) :
    (Fit before arguments →
      alignInputs (before ++ input :: after) arguments =
        .error (.invalidType input.canonicalType fault)) ∧
    (¬Fit before arguments → ∃ error,
      alignInputs (before ++ input :: after) arguments = .error error ∧
        error.isMismatch = true) := by
  obtain ⟨front, argument, back, rfl, sameLength⟩ : ∃ front argument back,
      arguments = front ++ argument :: back ∧ before.length = front.length := by
    have inside : before.length < arguments.length := by simp [← counted]
    refine ⟨arguments.take before.length, arguments[before.length],
      arguments.drop (before.length + 1), ?_, ?_⟩
    · rw [List.getElem_cons_drop, List.take_append_drop]
    · rw [List.length_take_of_le (Nat.le_of_lt inside)]
  have entries : (before ++ input :: after).zip (front ++ argument :: back) =
      before.zip front ++ (input, argument) :: after.zip back := List.zip_append sameLength
  have frontEntries : before.zip (front ++ argument :: back) = before.zip front := by
    have joined : (before ++ []).zip (front ++ argument :: back) =
        before.zip front ++ [].zip (argument :: back) := List.zip_append sameLength
    simpa using joined
  have ownFault : fault? input argument = some (.invalidType input.canonicalType fault) := by
    simp [fault?, unparsable]
  obtain ⟨fits, mismatches⟩ := findSome?_fault?_of_parsable parsable front
  rw [Fit, frontEntries, ← Fit, ← fits]
  simp only [alignInputs_eq_error_iff, entries, List.findSome?_append, List.findSome?_cons,
    ownFault]
  cases found : (before.zip front).findSome? fun entry => fault? entry.1 entry.2 with
  | none => simp
  | some error =>
    have mismatch := mismatches error found
    simp [mismatch]

end Alignment

/-- Among inputs whose type texts do not all stand for types there is a first one to blame. -/
theorem Param.exists_first_unparsable {inputs : List Param}
    (unparsable : ∃ input ∈ inputs, ∀ type, AbiType.parse input.canonicalType ≠ .ok type) :
    ∃ before input after fault, inputs = before ++ input :: after ∧
      (∀ earlier ∈ before, ∃ type, AbiType.parse earlier.canonicalType = .ok type) ∧
      AbiType.parse input.canonicalType = .error fault := by
  induction inputs with
  | nil => simp at unparsable
  | cons first inputs inductionHypothesis =>
    cases parsed : AbiType.parse first.canonicalType with
    | error fault => exact ⟨[], first, inputs, fault, rfl, by simp, parsed⟩
    | ok type =>
      have further : ∃ input ∈ inputs, ∀ type, AbiType.parse input.canonicalType ≠ .ok type := by
        simpa [parsed] using unparsable
      obtain ⟨before, input, after, fault, rfl, parsable, failed⟩ := inductionHypothesis further
      exact ⟨first :: before, input, after, fault, rfl,
        List.forall_mem_cons.2 ⟨⟨type, parsed⟩, parsable⟩, failed⟩

/-- A candidate with inputs on which the codec does not answer ends the lookup with an error. -/
theorem Interface.findElement_of_unanswered {interface : Interface} {codec : Codec}
    {name : String} (ordinary : Identifier.IsOrdinary name) {arguments : List Argument}
    {named : NamedArguments} {element : Element}
    (candidate : element ∈ interface.candidates name arguments named)
    (hasInputs : element.inputs ≠ [])
    (unanswered : ¬codec.Answers arguments named element) :
    ∃ error, (interface.findElement codec (.name name) arguments named).result =
      .error (.encoding error) := by
  have slow : ¬(arguments = [] ∧ named.entries = [] ∧
      (interface.candidates name arguments named).length = 1) := by
    rintro ⟨rfl, noneNamed, -⟩
    exact hasInputs (List.length_eq_zero_iff.1 (inputCount_of_mem_candidates noneNamed candidate))
  obtain ⟨error, failed⟩ := Codec.exists_encodable_eq_error_iff.2 fun answered =>
    unanswered (answered element candidate)
  rw [findElement_eq_findByName ordinary, findByName_of_not_only slow, Probed.result_map]
  exact ⟨error, choose_eq_encoding_iff.2 failed⟩

namespace Codec

variable {strict : Bool} {room : Nat} {element : Element} {arguments : List Argument}
  {named : NamedArguments}

/-- When arranged arguments cannot be aligned, the answer rests on that error. -/
theorem canEncode_of_align_eq_error {codec : Codec} (loose : element.takesRawData = false)
    {arranged : List Argument} (arranges : codec.arrange element arguments named = .ok arranged)
    (counted : arranged.length = element.inputCount) {error : EncodingError}
    (failed : codec.align element arranged = .error error) :
    (codec.canEncode element arguments named).result = refuse error := by
  simp [canEncode, loose, arranges, counted, failed]

/-- A declared type that stands for no type is a broken declaration, not an ordinary mismatch, as
long as the arguments in front of it fit: the answer is then an error about the first such type,
whatever its own argument and those behind it are, and no lookup passes over the element. Where an
argument in front of it does not fit, that mismatch comes first, and the element is refused. -/
theorem canEncode_of_unparsable (strict : Bool) (room : Nat) {element : Element}
    (loose : element.takesRawData = false) {arguments arranged : List Argument}
    {named : NamedArguments} (arranges : element.arrange arguments named = .ok arranged)
    (unparsable : ∃ input ∈ element.inputs,
      ∀ type, AbiType.parse input.canonicalType ≠ .ok type) :
    let codec := Codec.standard strict room
    let answer := (codec.canEncode element arguments named).result
    ∃ before input after fault, element.inputs = before ++ input :: after ∧
      (∀ earlier ∈ before, ∃ type, AbiType.parse earlier.canonicalType = .ok type) ∧
      AbiType.parse input.canonicalType = .error fault ∧
      (Alignment.Fit before arranged →
        answer = .error (.invalidType input.canonicalType fault) ∧
        ∀ (interface : Interface) (name : String), Identifier.IsOrdinary name →
          element ∈ interface.candidates name arguments named →
          ∃ error, (interface.findElement codec (.name name) arguments named).result =
            .error (.encoding error)) ∧
      (¬Alignment.Fit before arranged → answer = .ok false) := by
  intro codec answer
  obtain ⟨before, input, after, fault, split, parsable, failed⟩ :=
    Param.exists_first_unparsable unparsable
  have counted := Element.length_of_arrange arranges
  have aligns : element.align arranged =
      Alignment.alignInputs (before ++ input :: after) arranged := by
    rw [Element.align, if_neg (not_not.2 counted.symm), split]
  have lengths : (before ++ input :: after).length = arranged.length := by
    rw [← split, counted, Element.inputCount]
  obtain ⟨fits, misfits⟩ := Alignment.alignInputs_of_unparsable parsable failed lengths
  refine ⟨before, input, after, fault, split, parsable, failed, ?_, ?_⟩
  · intro fit
    have answered : answer = refuse (.invalidType input.canonicalType fault) :=
      canEncode_of_align_eq_error loose arranges counted (aligns.trans (fits fit))
    refine ⟨answered, ?_⟩
    intro interface name ordinary candidate
    refine Interface.findElement_of_unanswered ordinary candidate (by simp [split]) ?_
    rintro ⟨taken, verdict⟩
    have impossible : .ok taken = refuse (.invalidType input.canonicalType fault) :=
      verdict.symm.trans answered
    cases impossible
  · intro misfit
    obtain ⟨error, alignFailed, mismatch⟩ := misfits misfit
    have answered : answer = refuse error :=
      canEncode_of_align_eq_error loose arranges counted (aligns.trans alignFailed)
    rw [answered, refuse, if_pos mismatch]

/-- Behind an input that fits every argument, a broken declaration is always reported. -/
theorem canEncode_of_unparsable_behind_plain :
    let element : Element :=
      .function ⟨"f", [⟨"a", "uint8", [], none⟩, ⟨"b", "foo", [], none⟩], [], .nonPayable⟩
    let arguments : List Argument := [.text "x", .bool true]
    element.takesRawData = false ∧ element.arrange arguments .empty = .ok arguments ∧
    AbiType.parse "foo" = .error (.unknownName "foo") ∧
    ((Codec.standard true 4096).canEncode element arguments .empty).result =
      .error (.invalidType "foo" (.unknownName "foo")) := by
  intro element arguments
  have arranges : element.arrange arguments .empty = .ok arguments := rfl
  have unknown : AbiType.parse "foo" = .error (.unknownName "foo") := by cbv
  have known : ∃ type, AbiType.parse "uint8" = .ok type := ⟨.uint ⟨8, by decide⟩, by cbv⟩
  have unparsable : ∃ input ∈ element.inputs,
      ∀ type, AbiType.parse input.canonicalType ≠ .ok type := by
    refine ⟨⟨"b", "foo", [], none⟩, by simp [element, Element.inputs], ?_⟩
    intro type
    change AbiType.parse "foo" ≠ .ok type
    simp [unknown]
  obtain ⟨before, input, after, fault, split, -, failed, reported, -⟩ :=
    canEncode_of_unparsable true 4096 rfl arranges unparsable
  refine ⟨rfl, arranges, unknown, ?_⟩
  simp only [element, Element.inputs] at split
  cases before with
  | nil =>
    obtain ⟨type, parsed⟩ := known
    obtain ⟨rfl, -⟩ := List.cons.inj split
    change AbiType.parse "uint8" = .error fault at failed
    simp [parsed] at failed
  | cons first front =>
    obtain ⟨rfl, others⟩ := List.cons.inj split
    cases front with
    | nil =>
      obtain ⟨rfl, -⟩ := List.cons.inj others
      change AbiType.parse "foo" = .error fault at failed
      obtain rfl := Except.error.inj (unknown.symm.trans failed)
      exact (reported (Alignment.Fit.of_plain (by decide) _)).1
    | cons second front => simp at others

/-- A mismatch in front of a type that stands for no type hides it: the element is refused as if its
declaration were sound, and another one is chosen in its place. -/
theorem canEncode_ne_error_of_unparsable :
    let tuple : Param := ⟨"a", "tuple", [⟨"b", "bool", [], none⟩], none⟩
    let broken : Element := .function ⟨"f", [tuple, ⟨"c", "foo", [], none⟩], [], .nonPayable⟩
    let sound : Element :=
      .function ⟨"f", [⟨"a", "bool", [], none⟩, ⟨"b", "bool", [], none⟩], [], .nonPayable⟩
    let arguments : List Argument := [.bool true, .bool true]
    let codec := Codec.standard true 4096
    broken.takesRawData = false ∧ broken.arrange arguments .empty = .ok arguments ∧
    AbiType.parse "foo" = .error (.unknownName "foo") ∧
    (codec.canEncode broken arguments .empty).result = .ok false ∧
    (Interface.findElement ⟨[broken, sound]⟩ codec (.name "f") arguments .empty).result =
      .ok sound := by
  intro tuple broken sound arguments codec
  refine ⟨rfl, rfl, by cbv, ?_, ?_⟩
  · cbv
  · cbv

end Codec

end ContractAbi
