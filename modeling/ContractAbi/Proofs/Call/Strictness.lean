import ContractAbi.Proofs.Call.Soundness

/-!
# Strict and loose codecs

A loose codec coerces whatever a strict one does, and to the same values
(`Argument.coerce_of_strict`). So a lookup may find more takers when it gets looser and never fewer:
`Loosened` lists what can become of its outcome. Calls that both codecs resolve are encoded alike.
-/

namespace ContractAbi

namespace Argument

theorem fixedBytes_of_strict {size : Nat} {content : Bytes} {value : Value}
    (taken : fixedBytes true size content = some value) :
    fixedBytes false size content = some value := by
  by_cases full : content.length = size
  · simpa [fixedBytes, full] using taken
  · simp [fixedBytes, full] at taken

theorem coerceEach_of_strict {types : List AbiType}
    (each : ∀ type ∈ types, ∀ {argument value},
      coerce true type argument = some value → coerce false type argument = some value)
    {arguments : List Argument} {values : List Value}
    (coerced : coerceEach true types arguments = some values) :
    coerceEach false types arguments = some values := by
  induction types generalizing arguments values with
  | nil =>
    rw [coerceEach_nil_eq_some_iff] at coerced ⊢
    exact coerced
  | cons type types inductionHypothesis =>
    obtain ⟨first, others⟩ := List.forall_mem_cons.1 each
    rw [coerceEach_cons_eq_some_iff] at coerced ⊢
    obtain ⟨argument, otherArguments, value, otherValues, rfl, rfl, taken, othersTaken⟩ := coerced
    exact ⟨argument, otherArguments, value, otherValues, rfl, rfl, first taken,
      inductionHypothesis others othersTaken⟩

/-- What is coerced strictly is coerced loosely, and to the same value. -/
theorem coerce_of_strict {type : AbiType} {argument : Argument} {value : Value}
    (coerced : coerce true type argument = some value) :
    coerce false type argument = some value := by
  induction type generalizing argument value with
  | bool | uint | int | address | function | bytes | string =>
    simpa only [coerce] using coerced
  | fixedBytes size =>
    simp only [coerce, Option.bind_eq_some_iff] at coerced ⊢
    obtain ⟨content, isContent, taken⟩ := coerced
    exact ⟨content, isContent, fixedBytes_of_strict taken⟩
  | array element inductionHypothesis =>
    rw [coerce_array_eq_some_iff] at coerced ⊢
    obtain ⟨items, values, isList, isArray, each⟩ := coerced
    exact ⟨items, values, isList, isArray, each.imp fun _ _ => inductionHypothesis⟩
  | fixedArray element length inductionHypothesis =>
    rw [coerce_fixedArray_eq_some_iff] at coerced ⊢
    obtain ⟨items, values, isList, isArray, counted, each⟩ := coerced
    exact ⟨items, values, isList, isArray, counted, each.imp fun _ _ => inductionHypothesis⟩
  | tuple members inductionHypothesis =>
    rw [coerce_tuple_eq_some_iff] at coerced ⊢
    obtain ⟨items, values, isList, isTuple, each⟩ := coerced
    exact ⟨items, values, isList, isTuple, coerceEach_of_strict inductionHypothesis each⟩

theorem coerceText_of_strict {text : String} {argument : Argument} {value : Value}
    (coerced : coerceText true text argument = some value) :
    coerceText false text argument = some value := by
  rw [coerceText_eq_some_iff] at coerced ⊢
  obtain ⟨type, parsed, taken⟩ := coerced
  exact ⟨type, parsed, coerce_of_strict taken⟩

/-- Arguments that are coerced strictly one by one are coerced loosely to the same values. -/
theorem zipWith_coerceText_of_strict {texts : List String} {arguments : List Argument}
    {values : List Value}
    (coerced : List.zipWith (coerceText true) texts arguments = values.map some) :
    List.zipWith (coerceText false) texts arguments = values.map some := by
  induction texts generalizing arguments values with
  | nil => exact coerced
  | cons text texts inductionHypothesis =>
    cases arguments with
    | nil => exact coerced
    | cons argument arguments =>
      cases values with
      | nil => simp at coerced
      | cons value values =>
        obtain ⟨first, others⟩ := List.cons.inj coerced
        rw [List.zipWith_cons_cons, coerceText_of_strict first, inductionHypothesis others,
          List.map_cons]

end Argument

namespace Codec

variable {room : Nat} {arguments : List Argument} {named : NamedArguments} {element : Element}

/-- Strictness has no part in the errors of arrangement and alignment. -/
theorem verdict_eq_error_iff_of_strict {error : EncodingError} :
    (Codec.standard true room).verdict arguments named element = .error error ↔
      (Codec.standard false room).verdict arguments named element = .error error := by
  cases loose : element.takesRawData with
  | true => simp [verdict, canEncode, loose]
  | false =>
    rw [verdict_eq_error_iff loose, verdict_eq_error_iff loose]
    rfl

theorem answers_iff_of_strict :
    (Codec.standard true room).Answers arguments named element ↔
      (Codec.standard false room).Answers arguments named element := by
  have unanswered (strict : Bool) : (Codec.standard strict room).Answers arguments named element ↔
      ¬∃ error, (Codec.standard strict room).verdict arguments named element = .error error := by
    unfold Answers
    cases (Codec.standard strict room).verdict arguments named element <;> simp
  rw [unanswered, unanswered]
  exact not_congr (exists_congr fun _ => verdict_eq_error_iff_of_strict)

/-- An element that takes the arguments strictly takes them loosely. -/
theorem takes_of_strict (taken : (Codec.standard true room).takes arguments named element = true) :
    (Codec.standard false room).takes arguments named element = true := by
  rw [takes_eq_true] at taken ⊢
  cases loose : element.takesRawData with
  | true => simp [verdict, canEncode, loose]
  | false =>
    rw [verdict_eq_ok_true_iff loose] at taken ⊢
    obtain ⟨arranged, types, aligned, arranges, counted, aligns, able⟩ := taken
    refine ⟨arranged, types, aligned, arranges, counted, aligns, ?_⟩
    intro entry member
    obtain ⟨value, coerced⟩ := Option.isSome_iff_exists.1 (able entry member)
    exact Option.isSome_iff_exists.2 ⟨value, Argument.coerceText_of_strict coerced⟩

/-- What is encoded strictly is encoded loosely, and to the same data. -/
theorem encode_of_strict {types : List String} {data : Bytes}
    (encoded : (Codec.standard true room).encode types arguments = .ok data) :
    (Codec.standard false room).encode types arguments = .ok data := by
  obtain ⟨counted, values, coerced, written⟩ := encodeArguments_eq_ok_iff.1 encoded
  exact encodeArguments_eq_ok_iff.2
    ⟨counted, values, Argument.zipWith_coerceText_of_strict coerced, written⟩

end Codec

/-- What can become of a lookup when the codec gets looser: the outcome stays, or the element that
was found gets a rival, or arguments that no element took are taken by one element or by several. -/
inductive Loosened : (strict loose : Except ResolutionError Element) → Prop where
  | same (outcome : Except ResolutionError Element) : Loosened outcome outcome
  | contested (element : Element) (account : Diagnosis) (ambiguous : account.reason = .ambiguous) :
    Loosened (.ok element) (.error (.unresolved account))
  | admitted (account : Diagnosis) (refused : account.reason = .argumentTypes) (element : Element) :
    Loosened (.error (.unresolved account)) (.ok element)
  | overrun (account other : Diagnosis) (refused : account.reason = .argumentTypes)
    (ambiguous : other.reason = .ambiguous) :
    Loosened (.error (.unresolved account)) (.error (.unresolved other))

namespace Loosened

variable {strict loose : Except ResolutionError Element} {element : Element}

theorem of_strict_ok (loosened : Loosened strict loose) (found : strict = .ok element) :
    loose = .ok element ∨
      ∃ account, loose = .error (.unresolved account) ∧ account.reason = .ambiguous := by
  cases loosened with
  | same => exact .inl found
  | contested _ account ambiguous => exact .inr ⟨account, rfl, ambiguous⟩
  | admitted | overrun => cases found

theorem of_loose_ok (loosened : Loosened strict loose) (found : loose = .ok element) :
    strict = .ok element ∨
      ∃ account, strict = .error (.unresolved account) ∧ account.reason = .argumentTypes := by
  cases loosened with
  | same => exact .inl found
  | admitted account refused => exact .inr ⟨account, rfl, refused⟩
  | contested | overrun => cases found

theorem argumentCount_iff (loosened : Loosened strict loose) {account : Diagnosis}
    (miscounted : account.reason = .argumentCount) :
    strict = .error (.unresolved account) ↔ loose = .error (.unresolved account) := by
  cases loosened <;> grind

theorem encoding_error_iff (loosened : Loosened strict loose) {error : EncodingError} :
    strict = .error (.encoding error) ↔ loose = .error (.encoding error) := by
  cases loosened <;> simp

theorem of_strict_ambiguous (loosened : Loosened strict loose) {account : Diagnosis}
    (ambiguous : account.reason = .ambiguous) (failed : strict = .error (.unresolved account)) :
    loose = .error (.unresolved account) := by
  cases loosened with
  | same => exact failed
  | contested => cases failed
  | admitted _ refused | overrun _ _ refused =>
    cases failed
    rw [refused] at ambiguous
    cases ambiguous

end Loosened

namespace Interface

variable {room : Nat} {interface : Interface} {name : String} {arguments : List Argument}
  {named : NamedArguments} {fitting : Nat}

/-- The choice is loosened when it is made among more elements. -/
theorem loosened_choose {matching wider : List Element} (more : matching.Sublist wider)
    (bounded : wider.length ≤ fitting) :
    Loosened (interface.choose name arguments named fitting (.ok matching))
      (interface.choose name arguments named fitting (.ok wider)) := by
  have counts := more.length_le
  by_cases same : matching.length = wider.length
  · rw [more.eq_of_length same]
    exact .same _
  have some : fitting ≠ 0 := by omega
  match matching with
  | [] =>
    rw [choose_of_none some]
    match wider with
    | [] => exact absurd rfl same
    | [element] => exact .admitted _ rfl element
    | _ :: _ :: _ =>
      rw [choose_of_several some (by simp)]
      exact .overrun _ _ rfl rfl
  | [element] =>
    have several : 2 ≤ wider.length := by
      simp only [List.length_singleton] at counts same
      omega
    rw [choose_of_several some several]
    exact .contested element _ rfl
  | first :: second :: others =>
    have several : 2 ≤ (first :: second :: others).length := by simp
    rw [choose_of_several some several, choose_of_several some (Nat.le_trans several counts)]
    exact .same _

theorem loosened_findByName :
    Loosened (interface.findByName (.standard true room) name arguments named).result
      (interface.findByName (.standard false room) name arguments named).result := by
  by_cases fast : arguments = [] ∧ named.entries = [] ∧
      (interface.candidates name arguments named).length = 1
  · obtain ⟨noArguments, noneNamed, single⟩ := fast
    obtain ⟨element, only⟩ := List.length_eq_one_iff.1 single
    rw [findByName_of_only noArguments noneNamed only,
      findByName_of_only noArguments noneNamed only]
    exact .same _
  rw [findByName_of_not_only fast, findByName_of_not_only fast, Probed.result_map,
    Probed.result_map]
  cases strict : ((Codec.standard true room).encodable arguments named
      (interface.candidates name arguments named)).result with
  | error error =>
    -- The first fault is the same one for both codecs, and they answer in front of it alike.
    have loose : ((Codec.standard false room).encodable arguments named
        (interface.candidates name arguments named)).result = .error error := by
      rw [Codec.encodable_eq_error_iff] at strict ⊢
      obtain ⟨before, element, after, split, answered, failed⟩ := strict
      exact ⟨before, element, after, split,
        fun other member => Codec.answers_iff_of_strict.1 (answered other member),
        Codec.verdict_eq_error_iff_of_strict.1 failed⟩
    rw [loose]
    exact .same _
  | ok matching =>
    obtain ⟨answered, rfl⟩ := Codec.encodable_eq_ok_iff.1 strict
    rw [Codec.encodable_eq_ok_iff.2
      ⟨fun element member => Codec.answers_iff_of_strict.1 (answered element member), rfl⟩]
    apply loosened_choose
    · exact List.monotone_filter_right _ fun _ => Codec.takes_of_strict
    · exact List.length_filter_le _ _

end Interface

/-- A call that is encoded strictly is encoded loosely to the same bytes. -/
theorem ResolvedCall.encodeInput_of_strict {call : ResolvedCall} {data : Bytes}
    (encoded : call.encodeInput (.standard true room) = .ok data) :
    call.encodeInput (.standard false room) = .ok data := by
  simp only [encodeInput, Outcome.map_eq_ok] at encoded ⊢
  obtain ⟨body, isBody, written⟩ := encoded
  exact ⟨body, Codec.encode_of_strict isBody, written⟩

namespace Interface

/-- A looser check of fixed byte strings only adds possibilities. What is coerced strictly is
coerced loosely to the same value. An element that is found strictly is found loosely, unless a
rival makes the call ambiguous, and one that is found loosely is found strictly, unless no element
takes the arguments. Wrong argument counts and errors of the codec are the same in both, ambiguous
calls stay ambiguous, and a call that both resolve has one encoding. -/
theorem findElement_of_strict (room : Nat) (interface : Interface) {name : String}
    (ordinary : Identifier.IsOrdinary name) (arguments : List Argument) (named : NamedArguments) :
    let strict := Codec.standard true room
    let loose := Codec.standard false room
    let found (codec : Codec) :=
      (interface.findElement codec (.name name) arguments named).result
    let resolved (codec : Codec) := (interface.resolve codec (.name name) arguments named).result
    (∀ type argument value, strict.coerce type argument = some value →
      loose.coerce type argument = some value) ∧
    (∀ element, found strict = .ok element → found loose = .ok element ∨
      ∃ account, found loose = .error (.unresolved account) ∧ account.reason = .ambiguous) ∧
    (∀ element, found loose = .ok element → found strict = .ok element ∨
      ∃ account, found strict = .error (.unresolved account) ∧
        account.reason = .argumentTypes) ∧
    (∀ account, account.reason = .argumentCount →
      (found strict = .error (.unresolved account) ↔
        found loose = .error (.unresolved account))) ∧
    (∀ error, found strict = .error (.encoding error) ↔
      found loose = .error (.encoding error)) ∧
    (∀ account, account.reason = .ambiguous → found strict = .error (.unresolved account) →
      found loose = .error (.unresolved account)) ∧
    ∀ call other, resolved strict = .ok call → resolved loose = .ok other →
      ∃ calldata, call.encodeInput strict = .ok calldata ∧
        other.encodeInput loose = .ok calldata := by
  intro strict loose found resolved
  have loosened : Loosened (found strict) (found loose) := by
    simp only [found, findElement_eq_findByName ordinary]
    exact loosened_findByName
  refine ⟨fun _ _ _ => Argument.coerceText_of_strict, fun _ => loosened.of_strict_ok,
    fun _ => loosened.of_loose_ok, fun _ => loosened.argumentCount_iff,
    fun _ => loosened.encoding_error_iff, fun _ => loosened.of_strict_ambiguous, ?_⟩
  intro call other called otherCalled
  obtain ⟨element, isFound, makesCall⟩ := resolve_eq_ok_iff.1 called
  obtain ⟨otherElement, otherFound, makesOther⟩ := resolve_eq_ok_iff.1 otherCalled
  -- Both find one element, and the call to it does not depend on the strictness.
  obtain rfl : element = otherElement := by
    rcases loosened.of_strict_ok isFound with stays | ⟨account, contested, -⟩
    · exact Except.ok.inj (stays.symm.trans otherFound)
    · cases contested.symm.trans otherFound
  obtain rfl : call = other := Except.ok.inj (makesCall.symm.trans makesOther)
  obtain ⟨_, resolves, -, ready⟩ := exists_readyFor_of_findElement ordinary isFound
  obtain rfl := Except.ok.inj (called.symm.trans resolves)
  obtain ⟨_, _, _, _, encoded, _⟩ := ready.encoded
  exact ⟨_, encoded, ResolvedCall.encodeInput_of_strict encoded⟩

/-- Two bytes are found to be a `bytes2` strictly; loosely they may be the start of a `bytes4`. -/
theorem findElement_of_strict_of_short :
    let long : Element := .function ⟨"f", [⟨"a", "bytes4", [], none⟩], [], .nonPayable⟩
    let short : Element := .function ⟨"f", [⟨"a", "bytes2", [], none⟩], [], .nonPayable⟩
    let interface : Interface := ⟨[long, short]⟩
    let found (strict : Bool) :=
      (interface.findElement (.standard strict 4096) (.name "f") [.bytes [1, 2]] .empty).result
    Identifier.IsOrdinary "f" ∧ found true = .ok short ∧
      ∃ account, found false = .error (.unresolved account) ∧ account.reason = .ambiguous := by
  intro long short interface found
  have ordinary : Identifier.IsOrdinary "f" := by decide
  have strictly : found true = .ok short := by cbv
  have longTakes : (Codec.standard false 4096).takes [.bytes [1, 2]] .empty long = true := by cbv
  have shortTakes : (Codec.standard false 4096).takes [.bytes [1, 2]] .empty short = true := by cbv
  have fitting : interface.candidates "f" [.bytes [1, 2]] .empty = [long, short] := by decide
  obtain ⟨-, stays, -⟩ := findElement_of_strict 4096 interface ordinary [.bytes [1, 2]] .empty
  rcases stays short strictly with loosely | contested
  · beta_reduce at loosely
    rw [findElement_eq_findByName ordinary, findByName_eq_ok_iff_of_not_only (by simp),
      fitting] at loosely
    simp [longTakes, shortTakes] at loosely
  · exact ⟨ordinary, strictly, contested⟩

end Interface

end ContractAbi
