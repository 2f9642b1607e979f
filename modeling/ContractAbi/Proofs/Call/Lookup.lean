import ContractAbi.Call.Resolution
import ContractAbi.Proofs.Outcome
import Mathlib

/-!
# The outcome of a lookup by name

The candidates of a lookup are the named elements with a fitting argument count. `encodable` asks
the codec about them in order. `encodable_eq_ok_iff` and `encodable_eq_error_iff` say what comes of
that, and `Interface.findElement_outcome` gives the element or the error of every lookup from the
answers of the codec alone.
-/

namespace ContractAbi

/-- A filter keeps one item exactly when one position passes it. -/
theorem filter_eq_singleton_iff {α : Type} {keep : α → Bool} {items : List α} {item : α} :
    items.filter keep = [item] ↔
      ∃ before after, items = before ++ item :: after ∧ keep item = true ∧
        ∀ other ∈ before ++ after, keep other = false := by
  rw [List.filter_eq_cons_iff]
  constructor
  · rintro ⟨before, after, rfl, refusedBefore, kept, nothingAfter⟩
    refine ⟨before, after, rfl, kept, ?_⟩
    intro other member
    rcases List.mem_append.1 member with member | member
    · simpa using refusedBefore other member
    · simpa using List.filter_eq_nil_iff.1 nothingAfter other member
  · rintro ⟨before, after, rfl, kept, refused⟩
    refine ⟨before, after, rfl, ?_, kept, List.filter_eq_nil_iff.2 ?_⟩
    · intro other member
      simp [refused other (List.mem_append_left _ member)]
    · intro other member
      simp [refused other (List.mem_append_right _ member)]

namespace Codec

variable (codec : Codec) (arguments : List Argument) (named : NamedArguments)

/-- The codec's answer to whether an element takes the arguments. -/
def verdict (element : Element) : Except EncodingError Bool :=
  (codec.canEncode element arguments named).result

/-- Whether the codec lets an element take the arguments. -/
def takes (element : Element) : Bool :=
  match codec.verdict arguments named element with
  | .ok taken => taken
  | .error _ => false

/-- The codec answers without an error. -/
def Answers (element : Element) : Prop := ∃ taken, codec.verdict arguments named element = .ok taken

/-- The error is the codec's answer on an element, and there is none on the elements before. -/
def FirstFault (elements : List Element) (error : EncodingError) : Prop :=
  ∃ before element after, elements = before ++ element :: after ∧
    (∀ other ∈ before, codec.Answers arguments named other) ∧
    codec.verdict arguments named element = .error error

/-- The element stands at the only position that takes the arguments. -/
def OnlyTaker (elements : List Element) (element : Element) : Prop :=
  ∃ before after, elements = before ++ element :: after ∧
    codec.takes arguments named element = true ∧
    ∀ other ∈ before ++ after, codec.takes arguments named other = false

variable {codec arguments named}

theorem takes_eq_true {element : Element} :
    codec.takes arguments named element = true ↔
      codec.verdict arguments named element = .ok true := by
  unfold takes
  cases codec.verdict arguments named element <;> simp

/-- One more element in front is asked about first, and an error on it ends the search. -/
theorem result_encodable_cons (element : Element) (elements : List Element) :
    (codec.encodable arguments named (element :: elements)).result =
      (codec.verdict arguments named element).bind fun taken =>
        (codec.encodable arguments named elements).result.map fun others =>
          if taken then element :: others else others := by
  rw [encodable, verdict]
  cases found : (codec.canEncode element arguments named).result <;> simp [found, Except.bind]

/-- Without an error the elements that take the arguments are kept in order. -/
theorem encodable_eq_ok_iff {elements matching : List Element} :
    (codec.encodable arguments named elements).result = .ok matching ↔
      (∀ element ∈ elements, codec.Answers arguments named element) ∧
        matching = elements.filter (codec.takes arguments named) := by
  induction elements generalizing matching with
  | nil => simp [encodable, eq_comm]
  | cons element elements inductionHypothesis =>
    rw [result_encodable_cons]
    cases found : codec.verdict arguments named element with
    | error error => simp [Except.bind, Answers, found]
    | ok taken =>
      have answers : codec.Answers arguments named element := ⟨taken, found⟩
      have kept : codec.takes arguments named element = taken := by simp [takes, found]
      cases rest : (codec.encodable arguments named elements).result with
      | error error =>
        have unanswered : ¬∀ other ∈ elements, codec.Answers arguments named other := by
          intro all
          have impossible := inductionHypothesis.2 ⟨all, rfl⟩
          rw [rest] at impossible
          cases impossible
        simp [Except.bind, Except.map, unanswered]
      | ok others =>
        obtain ⟨all, rfl⟩ := inductionHypothesis.1 rest
        simp only [Except.bind, Except.map, List.forall_mem_cons, answers, true_and,
          List.filter_cons, kept, Except.ok.injEq, eq_comm (a := matching)]
        exact ⟨fun equal => ⟨all, equal⟩, And.right⟩

/-- The first error is that on the first element, or the first one behind an element that is
answered. -/
theorem firstFault_cons_iff {element : Element} {elements : List Element} {error : EncodingError} :
    codec.FirstFault arguments named (element :: elements) error ↔
      codec.verdict arguments named element = .error error ∨
        codec.Answers arguments named element ∧
          codec.FirstFault arguments named elements error := by
  constructor
  · rintro ⟨before, faulty, after, split, answered, answer⟩
    cases before with
    | nil =>
      obtain ⟨rfl, rfl⟩ := List.cons.inj split
      exact .inl answer
    | cons first before =>
      obtain ⟨rfl, rfl⟩ := List.cons.inj split
      obtain ⟨answers, answeredBefore⟩ := List.forall_mem_cons.1 answered
      exact .inr ⟨answers, before, faulty, after, rfl, answeredBefore, answer⟩
  · rintro (answer | ⟨answers, before, faulty, after, rfl, answered, answer⟩)
    · exact ⟨[], element, elements, rfl, by simp, answer⟩
    · exact ⟨element :: before, faulty, after, rfl, List.forall_mem_cons.2 ⟨answers, answered⟩,
        answer⟩

/-- An error of the search is the first error among the answers. -/
theorem encodable_eq_error_iff {elements : List Element} {error : EncodingError} :
    (codec.encodable arguments named elements).result = .error error ↔
      codec.FirstFault arguments named elements error := by
  induction elements with
  | nil => simp [encodable, FirstFault]
  | cons element elements inductionHypothesis =>
    rw [result_encodable_cons, firstFault_cons_iff, ← inductionHypothesis]
    cases found : codec.verdict arguments named element with
    | error fault => simp [Except.bind, Answers, found]
    | ok taken =>
      have answers : codec.Answers arguments named element := ⟨taken, found⟩
      cases (codec.encodable arguments named elements).result <;>
        simp [Except.bind, Except.map, answers]

/-- The search ends with an error exactly when some element is not answered. -/
theorem exists_encodable_eq_error_iff {elements : List Element} :
    (∃ error, (codec.encodable arguments named elements).result = .error error) ↔
      ¬∀ element ∈ elements, codec.Answers arguments named element := by
  cases outcome : (codec.encodable arguments named elements).result with
  | ok matching =>
    have answered := (encodable_eq_ok_iff.1 outcome).1
    simpa using answered
  | error fault =>
    have unanswered : ¬∀ element ∈ elements, codec.Answers arguments named element := by
      intro answered
      have impossible := encodable_eq_ok_iff.2 ⟨answered, rfl⟩
      rw [outcome] at impossible
      cases impossible
    simp [unanswered]

/-- Exactly one taker is kept when exactly one position takes the arguments. -/
theorem filter_takes_eq_singleton_iff {elements : List Element} {element : Element} :
    elements.filter (codec.takes arguments named) = [element] ↔
      codec.OnlyTaker arguments named elements element :=
  filter_eq_singleton_iff

end Codec

namespace Reason

variable {fitting matching : Nat}

/-- All counts but those of a success have a reason. -/
theorem exists_ofCounts?_eq_some (fitting : Nat) (failed : matching ≠ 1) :
    ∃ reason, ofCounts? fitting matching = some reason := by
  rw [← Option.isSome_iff_exists]
  unfold ofCounts?
  grind

theorem ofCounts?_eq_argumentCount_iff :
    ofCounts? fitting matching = some .argumentCount ↔ fitting = 0 := by
  unfold ofCounts?
  grind

theorem ofCounts?_eq_argumentTypes_iff :
    ofCounts? fitting matching = some .argumentTypes ↔ fitting ≠ 0 ∧ matching = 0 := by
  unfold ofCounts?
  grind

theorem ofCounts?_eq_ambiguous_iff :
    ofCounts? fitting matching = some .ambiguous ↔ fitting ≠ 0 ∧ 2 ≤ matching := by
  unfold ofCounts?
  grind

end Reason

namespace Interface

/-- The elements of a name that have as many inputs as there are arguments. -/
abbrev candidates (interface : Interface) (name : String) (arguments : List Argument)
    (named : NamedArguments) : List Element :=
  interface.ofArity name (arguments.length + named.size)

/-- The account that a failed lookup gives of itself: a reason that follows from the number of
candidates and of those that take the arguments, the types of what was supplied, and the signature
of every element of the name. -/
structure Accounts (interface : Interface) (codec : Codec) (name : String)
    (arguments : List Argument) (named : NamedArguments) (diagnosis : Diagnosis) : Prop where
  identifier : diagnosis.identifier = name
  argumentCount : diagnosis.reason = .argumentCount ↔
    interface.candidates name arguments named = []
  argumentTypes : diagnosis.reason = .argumentTypes ↔
    interface.candidates name arguments named ≠ [] ∧
      ∀ element ∈ interface.candidates name arguments named,
        codec.verdict arguments named element = .ok false
  ambiguous : diagnosis.reason = .ambiguous ↔
    2 ≤ (interface.candidates name arguments named).countP (codec.takes arguments named)
  /-- The counts alone give the reason; nothing stands in for a missing one. -/
  counted : Reason.ofCounts? (interface.candidates name arguments named).length
    ((interface.candidates name arguments named).countP (codec.takes arguments named)) =
      some diagnosis.reason
  positionalTypes : diagnosis.positionalTypes = Argument.renderTypes arguments
  namedTypes : diagnosis.namedTypes =
    named.entries.map fun entry => (entry.1, Argument.renderTypes [entry.2])
  signatures : diagnosis.signatures = (interface.named name).map Element.signature

variable {interface : Interface} {codec : Codec} {name : String} {arguments : List Argument}
  {named : NamedArguments}

/-- An element is chosen exactly when it is the only one left. -/
theorem choose_eq_ok_iff {fitting : Nat} {found : Except EncodingError (List Element)}
    {element : Element} :
    interface.choose name arguments named fitting found = .ok element ↔ found = .ok [element] := by
  match found with
  | .error _ | .ok [] | .ok (_ :: _ :: _) | .ok [_] => simp [choose]

/-- An error of the search is passed on, and no other choice looks like one. -/
theorem choose_eq_encoding_iff {fitting : Nat} {found : Except EncodingError (List Element)}
    {error : EncodingError} :
    interface.choose name arguments named fitting found = .error (.encoding error) ↔
      found = .error error := by
  match found with
  | .error _ | .ok [] | .ok (_ :: _ :: _) | .ok [_] => simp [choose]

/-- With none or several left, the choice is an account of the failure. -/
theorem choose_of_length_ne_one {fitting : Nat} {matching : List Element}
    (several : matching.length ≠ 1) :
    interface.choose name arguments named fitting (.ok matching) =
      .error (.unresolved (Diagnosis.ofCall name
        ((Reason.ofCounts? fitting matching.length).getD .ambiguous) arguments named
        ((interface.named name).map Element.signature))) := by
  match matching with
  | [] | _ :: _ :: _ => rfl
  | [_] => simp at several

/-- A choice among candidates none of which takes the arguments accounts for their types. -/
theorem choose_of_none {fitting : Nat} (some : fitting ≠ 0) :
    interface.choose name arguments named fitting (.ok []) =
      .error (.unresolved (Diagnosis.ofCall name .argumentTypes arguments named
        ((interface.named name).map Element.signature))) := by
  have counted := Reason.ofCounts?_eq_argumentTypes_iff.2 ⟨some, rfl⟩
  simp only [choose, List.length_nil, counted, Option.getD_some]

/-- A choice among candidates several of which take the arguments is ambiguous. -/
theorem choose_of_several {fitting : Nat} {matching : List Element} (some : fitting ≠ 0)
    (several : 2 ≤ matching.length) :
    interface.choose name arguments named fitting (.ok matching) =
      .error (.unresolved (Diagnosis.ofCall name .ambiguous arguments named
        ((interface.named name).map Element.signature))) := by
  have counted := Reason.ofCounts?_eq_ambiguous_iff.2 ⟨some, several⟩
  rw [choose_of_length_ne_one (by omega), counted, Option.getD_some]

/-- A call without arguments goes to the only candidate. -/
theorem findByName_of_only {element : Element} (noArguments : arguments = [])
    (noneNamed : named.entries = [])
    (only : interface.candidates name arguments named = [element]) :
    interface.findByName codec name arguments named = .unprobed (.ok element) := by
  have empty : (arguments.isEmpty && named.isEmpty) = true := by
    simp [noArguments, NamedArguments.isEmpty, noneNamed]
  have fitting : interface.ofArity name (arguments.length + named.size) = [element] := only
  simp only [findByName]
  rw [empty, fitting]

/-- In every other case the codec decides about all candidates. -/
theorem findByName_of_not_only
    (slow : ¬(arguments = [] ∧ named.entries = [] ∧
      (interface.candidates name arguments named).length = 1)) :
    interface.findByName codec name arguments named =
      (codec.encodable arguments named (interface.candidates name arguments named)).map
        (interface.choose name arguments named
          (interface.candidates name arguments named).length) := by
  simp only [findByName]
  split
  · next element empty only =>
    simp only [NamedArguments.isEmpty, Bool.and_eq_true, List.isEmpty_iff] at empty
    exact absurd ⟨empty.1, empty.2, by simp [only]⟩ slow
  · rfl

/-- Elements are looked up by name under every ordinary name. -/
theorem findElement_eq_findByName (ordinary : Identifier.IsOrdinary name) :
    interface.findElement codec (.name name) arguments named =
      interface.findByName codec name arguments named := by
  simp only [findElement, (Identifier.lookup_eq_ofName_iff _ _).2 ⟨rfl, ordinary⟩]

/-- When every candidate answers and not exactly one takes the arguments, the account is right. -/
theorem accounts_ofCall
    (answered : ∀ element ∈ interface.candidates name arguments named,
      codec.Answers arguments named element)
    (several : (interface.candidates name arguments named).countP
      (codec.takes arguments named) ≠ 1) :
    interface.Accounts codec name arguments named
      (Diagnosis.ofCall name
        ((Reason.ofCounts? (interface.candidates name arguments named).length
          ((interface.candidates name arguments named).countP
            (codec.takes arguments named))).getD .ambiguous)
        arguments named ((interface.named name).map Element.signature)) := by
  obtain ⟨reason, counted⟩ := Reason.exists_ofCounts?_eq_some
    (interface.candidates name arguments named).length several
  have reasonIs (other : Reason) : reason = other ↔
      Reason.ofCounts? (interface.candidates name arguments named).length
        ((interface.candidates name arguments named).countP (codec.takes arguments named)) =
          some other := by
    simp [counted]
  have bounded := List.countP_le_length (p := codec.takes arguments named)
    (l := interface.candidates name arguments named)
  rw [counted]
  refine ⟨rfl, ?_, ?_, ?_, counted, rfl, rfl, rfl⟩
  · exact (reasonIs _).trans
      (Reason.ofCounts?_eq_argumentCount_iff.trans List.length_eq_zero_iff)
  · refine (reasonIs _).trans (Reason.ofCounts?_eq_argumentTypes_iff.trans ?_)
    have refused (element : Element) (answers : codec.Answers arguments named element) :
        codec.verdict arguments named element = .ok false ↔
          ¬codec.takes arguments named element = true := by
      obtain ⟨taken, answer⟩ := answers
      simp [Codec.takes, answer]
    rw [List.countP_eq_zero]
    refine and_congr (not_congr List.length_eq_zero_iff) ?_
    exact forall_congr' fun element => imp_congr_right fun member =>
      (refused element (answered element member)).symm
  · refine (reasonIs _).trans (Reason.ofCounts?_eq_ambiguous_iff.trans ?_)
    exact and_iff_right_of_imp fun many => by omega

/-- The outcome of every lookup by an ordinary name. Without arguments it is the only candidate.
Otherwise it is the first error that the codec answers with; without one it is the candidate at the
only position that takes the arguments, or else the account of the failure. -/
theorem findElement_outcome (interface : Interface) (codec : Codec) {name : String}
    (ordinary : Identifier.IsOrdinary name) (arguments : List Argument) (named : NamedArguments) :
    let candidates := interface.candidates name arguments named
    let outcome := (interface.findElement codec (.name name) arguments named).result
    (arguments = [] → named.entries = [] →
      ∀ element, candidates = [element] → outcome = .ok element) ∧
    (¬(arguments = [] ∧ named.entries = [] ∧ candidates.length = 1) →
      (∀ error, outcome = .error (.encoding error) ↔
        codec.FirstFault arguments named candidates error) ∧
      (∀ element, outcome = .ok element ↔
        (∀ candidate ∈ candidates, codec.Answers arguments named candidate) ∧
          codec.OnlyTaker arguments named candidates element) ∧
      ((∀ candidate ∈ candidates, codec.Answers arguments named candidate) →
        (¬∃ element, codec.OnlyTaker arguments named candidates element) →
        ∃ diagnosis, outcome = .error (.unresolved diagnosis) ∧
          interface.Accounts codec name arguments named diagnosis)) := by
  intro candidates outcome
  refine ⟨?_, ?_⟩
  · intro noArguments noneNamed element only
    simp only [outcome, findElement_eq_findByName ordinary,
      findByName_of_only noArguments noneNamed only, Probed.result_unprobed]
  intro slow
  have chosen : outcome = interface.choose name arguments named candidates.length
      (codec.encodable arguments named candidates).result := by
    simp only [outcome, findElement_eq_findByName ordinary, findByName_of_not_only slow,
      Probed.result_map, candidates]
  refine ⟨?_, ?_, ?_⟩
  · intro error
    rw [chosen, choose_eq_encoding_iff, Codec.encodable_eq_error_iff]
  · intro element
    rw [chosen, choose_eq_ok_iff, Codec.encodable_eq_ok_iff,
      ← Codec.filter_takes_eq_singleton_iff, eq_comm (a := [element])]
  · intro answered noneOnly
    have several : (candidates.filter (codec.takes arguments named)).length ≠ 1 := by
      intro single
      obtain ⟨element, only⟩ := List.length_eq_one_iff.1 single
      exact noneOnly ⟨element, Codec.filter_takes_eq_singleton_iff.1 only⟩
    rw [chosen, Codec.encodable_eq_ok_iff.2 ⟨answered, rfl⟩, choose_of_length_ne_one several]
    rw [← List.countP_eq_length_filter] at several ⊢
    exact ⟨_, rfl, accounts_ofCall answered several⟩

/-- Two overloads take a list, one by its component and one by its item, so it goes to neither. -/
theorem findElement_outcome_of_list :
    let tuple : Element :=
      .function ⟨"f", [⟨"a", "tuple", [⟨"b", "bool", [], none⟩], none⟩], [], .nonPayable⟩
    let array : Element := .error ⟨"f", [⟨"a", "bool[]", [], none⟩]⟩
    let interface : Interface := ⟨[tuple, .function ⟨"f", [], [], .nonPayable⟩, array]⟩
    Identifier.IsOrdinary "f" ∧ ∃ diagnosis,
      (interface.findElement (.standard true 4096) (.name "f") [.list [.bool true]] .empty).result =
        .error (.unresolved diagnosis) ∧
      diagnosis.reason = .ambiguous ∧ diagnosis.signatures = ["f((bool))", "f()", "f(bool[])"] := by
  intro tuple array interface
  have ordinary : Identifier.IsOrdinary "f" := by decide
  have outcome :=
    findElement_outcome interface (.standard true 4096) ordinary [.list [.bool true]] .empty
  have takenByTuple :
      (Codec.standard true 4096).takes [.list [.bool true]] .empty tuple = true := by cbv
  have takenByArray :
      (Codec.standard true 4096).takes [.list [.bool true]] .empty array = true := by cbv
  have fitting : interface.candidates "f" [.list [.bool true]] .empty = [tuple, array] := by decide
  obtain ⟨-, -, failure⟩ := outcome.2 (by simp)
  rw [fitting] at failure
  have answered : ∀ candidate ∈ [tuple, array],
      (Codec.standard true 4096).Answers [.list [.bool true]] .empty candidate := by
    simp only [List.forall_mem_cons, List.not_mem_nil, false_implies, implies_true, and_true]
    exact ⟨⟨true, Codec.takes_eq_true.1 takenByTuple⟩, ⟨true, Codec.takes_eq_true.1 takenByArray⟩⟩
  have noneOnly : ¬∃ element,
      (Codec.standard true 4096).OnlyTaker [.list [.bool true]] .empty [tuple, array] element := by
    rintro ⟨element, only⟩
    rw [← Codec.filter_takes_eq_singleton_iff] at only
    simp [takenByTuple, takenByArray] at only
  obtain ⟨diagnosis, failed, account⟩ := failure answered noneOnly
  refine ⟨ordinary, diagnosis, failed, account.ambiguous.2 ?_, ?_⟩
  · simp [fitting, takenByTuple, takenByArray]
  · rw [account.signatures]
    decide

end Interface

end ContractAbi
