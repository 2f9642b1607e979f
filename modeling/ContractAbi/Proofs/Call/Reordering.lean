import ContractAbi.Proofs.Call.Lookup

/-!
# Lookups among the same candidates

A lookup goes through its candidates in declared order, but that order decides no more than which of
several errors is reported and how the signatures in an account are listed
(`Interface.endAlike_findByName`). Elements that are no candidates decide nothing else either.
-/

namespace ContractAbi

/-- Two lookups end alike: with the same element, both with an error of the codec, or with accounts
that differ in the signatures alone. -/
inductive EndAlike : (left right : Except ResolutionError Element) → Prop where
  | found (element : Element) : EndAlike (.ok element) (.ok element)
  | faulty (left right : EncodingError) :
    EndAlike (.error (.encoding left)) (.error (.encoding right))
  | unresolved (account : Diagnosis) (signatures : List String) :
    EndAlike (.error (.unresolved account))
      (.error (.unresolved { account with signatures := signatures }))

namespace EndAlike

variable {left right : Except ResolutionError Element}

theorem ok_iff (alike : EndAlike left right) (element : Element) :
    left = .ok element ↔ right = .ok element := by
  cases alike <;> simp

theorem encoding_iff (alike : EndAlike left right) :
    (∃ error, left = .error (.encoding error)) ↔ ∃ error, right = .error (.encoding error) := by
  cases alike <;> simp

theorem unresolved_iff (alike : EndAlike left right) (account : Diagnosis) :
    (∃ signatures, left = .error (.unresolved { account with signatures := signatures })) ↔
      ∃ signatures, right = .error (.unresolved { account with signatures := signatures }) := by
  cases alike with
  | found element => simp
  | faulty left right => simp
  | unresolved own signatures =>
    cases own
    cases account
    simp

end EndAlike

namespace Interface

variable {first second : Interface} {codec : Codec} {name : String} {arguments : List Argument}
  {named : NamedArguments}

/-- The order of the elements that take the arguments does not matter for the choice among them. -/
theorem endAlike_choose {fitting : Nat} {matching others : List Element}
    (same : matching.Perm others) :
    EndAlike (first.choose name arguments named fitting (.ok matching))
      (second.choose name arguments named fitting (.ok others)) := by
  by_cases single : matching.length = 1
  · obtain ⟨element, rfl⟩ := List.length_eq_one_iff.1 single
    obtain rfl := List.singleton_perm.1 same
    exact .found element
  · have several : others.length ≠ 1 := same.length_eq ▸ single
    rw [choose_of_length_ne_one single, choose_of_length_ne_one several, same.length_eq]
    exact .unresolved _ _

/-- Lookups among the same candidates in any order end alike. -/
theorem endAlike_findByName
    (same : (first.candidates name arguments named).Perm
      (second.candidates name arguments named)) :
    EndAlike (first.findByName codec name arguments named).result
      (second.findByName codec name arguments named).result := by
  by_cases fast : arguments = [] ∧ named.entries = [] ∧
      (first.candidates name arguments named).length = 1
  · obtain ⟨noArguments, noneNamed, single⟩ := fast
    obtain ⟨element, only⟩ := List.length_eq_one_iff.1 single
    rw [only, List.singleton_perm] at same
    rw [findByName_of_only noArguments noneNamed only,
      findByName_of_only noArguments noneNamed same.symm]
    exact .found element
  · have slow := fast
    rw [same.length_eq] at slow
    rw [findByName_of_not_only fast, findByName_of_not_only slow, Probed.result_map,
      Probed.result_map]
    by_cases answered : ∀ element ∈ first.candidates name arguments named,
        codec.Answers arguments named element
    · have otherAnswered : ∀ element ∈ second.candidates name arguments named,
          codec.Answers arguments named element := by
        intro element member
        exact answered element (same.mem_iff.2 member)
      rw [Codec.encodable_eq_ok_iff.2 ⟨answered, rfl⟩,
        Codec.encodable_eq_ok_iff.2 ⟨otherAnswered, rfl⟩, same.length_eq]
      exact endAlike_choose (same.filter _)
    · have otherUnanswered : ¬∀ element ∈ second.candidates name arguments named,
          codec.Answers arguments named element := by
        intro otherAnswered
        exact answered fun element member => otherAnswered element (same.mem_iff.1 member)
      obtain ⟨error, failed⟩ := Codec.exists_encodable_eq_error_iff.2 answered
      obtain ⟨otherError, otherFailed⟩ := Codec.exists_encodable_eq_error_iff.2 otherUnanswered
      rw [failed, otherFailed]
      exact .faulty error otherError

/-- Resolution rests on the competing candidates alone. When two interfaces have the same elements
of a name with a fitting argument count, in any order and among whatever others, a lookup finds the
same element in both, or fails in both with an error of the codec, or accounts for the failure in
both alike but for the signatures; and what one resolves, the other resolves to the same call. -/
theorem resolve_eq_of_perm (codec : Codec) {first second : Interface} {name : String}
    (ordinary : Identifier.IsOrdinary name) {arguments : List Argument} {named : NamedArguments}
    (same : (first.candidates name arguments named).Perm
      (second.candidates name arguments named)) :
    let outcome (interface : Interface) :=
      (interface.findElement codec (.name name) arguments named).result
    (∀ element, outcome first = .ok element ↔ outcome second = .ok element) ∧
    ((∃ error, outcome first = .error (.encoding error)) ↔
      ∃ error, outcome second = .error (.encoding error)) ∧
    (∀ account : Diagnosis,
      (∃ signatures,
        outcome first = .error (.unresolved { account with signatures := signatures })) ↔
      ∃ signatures,
        outcome second = .error (.unresolved { account with signatures := signatures })) ∧
    ∀ call, (first.resolve codec (.name name) arguments named).result = .ok call ↔
      (second.resolve codec (.name name) arguments named).result = .ok call := by
  intro outcome
  have alike : EndAlike (outcome first) (outcome second) := by
    simp only [outcome, findElement_eq_findByName ordinary]
    exact endAlike_findByName same
  refine ⟨alike.ok_iff, alike.encoding_iff, alike.unresolved_iff, ?_⟩
  intro call
  simp only [resolve, Probed.result_map, Outcome.bind_eq_ok]
  exact exists_congr fun element => and_congr_left fun _ => alike.ok_iff element

/-- An event and a function of one name are told apart in either order, with or without others. -/
theorem resolve_eq_of_perm_of_overloads :
    let event : Element := .event ⟨"f", [⟨⟨"a", "bool", [], none⟩, true⟩], false⟩
    let function : Element := .function ⟨"f", [⟨"a", "bytes", [], none⟩], [], .nonPayable⟩
    let first : Interface := ⟨[event, function]⟩
    let second : Interface := ⟨[.fallback .payable, function, .error ⟨"f", []⟩, event]⟩
    Identifier.IsOrdinary "f" ∧
    (first.candidates "f" [.bool true] .empty).Perm (second.candidates "f" [.bool true] .empty) ∧
    ∃ call,
      (first.resolve (.standard true 4096) (.name "f") [.bool true] .empty).result = .ok call ∧
      call.element = event ∧
      (second.resolve (.standard true 4096) (.name "f") [.bool true] .empty).result = .ok call := by
  intro event function first second
  have ordinary : Identifier.IsOrdinary "f" := by decide
  have same : (first.candidates "f" [.bool true] .empty).Perm
      (second.candidates "f" [.bool true] .empty) := by decide
  obtain ⟨-, -, -, calls⟩ := resolve_eq_of_perm (.standard true 4096) ordinary same
  have resolved : ∃ call,
      (first.resolve (.standard true 4096) (.name "f") [.bool true] .empty).result = .ok call ∧
        call.element = event := by
    refine ⟨⟨event, event.selector?, ["bool"], [.bool true]⟩, ?_, rfl⟩
    rfl
  obtain ⟨call, isCall, isEvent⟩ := resolved
  exact ⟨ordinary, same, call, isCall, isEvent, (calls call).1 isCall⟩

end Interface

end ContractAbi
