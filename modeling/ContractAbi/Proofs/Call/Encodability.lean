import ContractAbi.Proofs.Call.ArrangementOutcome
import ContractAbi.Proofs.Call.Mismatch

/-!
# Encodability and encoding

Whether an element takes arguments is asked type by type, and nothing is encoded for it. The answer
is how arranging, aligning and encoding the arguments would end, with every ordinary mismatch turned
into a refusal (`Codec.verdict_eq_of_encodeCall`). Any other error is about a declared type that
stands for no type (`Element.exists_unparsable_of_align`).
-/

namespace ContractAbi

variable {element : Element} {arguments : List Argument} {named : NamedArguments}
  {error : EncodingError}

/-! ## Errors of the single steps -/

/-- Arguments without an arrangement merely do not fit the element. -/
theorem Element.isMismatch_of_arrange (failed : element.arrange arguments named = .error error) :
    error.isMismatch = true := by
  by_cases counted : arguments.length + named.size = element.inputCount
  · obtain ⟨_, _, _, -, -, offence⟩ := (arrange_eq_error_iff counted).1 failed
    cases offence <;> rfl
  · simp only [arrange, ne_eq, counted, not_false_eq_true, ↓reduceIte] at failed
    cases failed
    rfl

/-- Alignment that fails with anything but a mismatch blames a declared type that stands for no
type. -/
theorem Element.exists_unparsable_of_align (failed : element.align arguments = .error error)
    (broken : error.isMismatch = false) :
    ∃ input ∈ element.inputs, ∃ fault, AbiType.parse input.canonicalType = .error fault ∧
      error = .invalidType input.canonicalType fault := by
  unfold align at failed
  split at failed
  · cases failed
    cases broken
  rw [Alignment.alignInputs_eq_error_iff] at failed
  obtain ⟨entry, member, faulty⟩ := List.exists_of_findSome?_eq_some failed
  unfold Alignment.fault? at faulty
  split at faulty
  · next fault unparsable =>
    cases faulty
    exact ⟨entry.1, (List.of_mem_zip member).1, fault, unparsable, rfl⟩
  · split at faulty
    · next shapeFault misfit =>
      cases faulty
      rw [Alignment.isMismatch_of_align misfit] at broken
      cases broken
    · cases faulty

/-- Arguments that cannot be encoded merely do not fit their types. -/
theorem isMismatch_of_encodeArguments {coerce : String → Argument → Option Value}
    {types : List String} (failed : encodeArguments coerce types arguments = .error error) :
    error.isMismatch = true := by
  unfold encodeArguments at failed
  split at failed
  · cases failed
    rfl
  · rw [Outcome.map_eq_error, coerceArguments_eq_error_iff] at failed
    obtain ⟨_, _, _, _, -, -, -, rfl⟩ := failed
    rfl

namespace Codec

/-! ## All steps together -/

/-- The encoding of a call's arguments: they are arranged and aligned, and then encoded at the types
of the element's inputs. -/
def encodeCall (codec : Codec) (element : Element) (arguments : List Argument)
    (named : NamedArguments) : Except EncodingError Bytes := do
  let arranged ← codec.arrange element arguments named
  let (types, aligned) ← codec.align element arranged
  codec.encode types aligned

/-- A call is encoded when each of its steps succeeds. -/
theorem encodeCall_eq_ok_iff {codec : Codec} {data : Bytes} :
    codec.encodeCall element arguments named = .ok data ↔
      ∃ arranged types aligned, codec.arrange element arguments named = .ok arranged ∧
        codec.align element arranged = .ok (types, aligned) ∧
        codec.encode types aligned = .ok data := by
  simp only [encodeCall, Outcome.bind_eq_ok, Prod.exists]
  grind

theorem refuse_eq_ok_false_iff : refuse error = .ok false ↔ error.isMismatch = true := by
  unfold refuse
  split <;> simp_all

variable {strict : Bool} {room : Nat}

/-- Probing every type ends as the encoding of all values does. -/
theorem result_probeEach_eq_ok_iff {types : List String} {aligned : List Argument}
    (counted : aligned.length = types.length) :
    ((standard strict room).probeEach (types.zip aligned)).result = true ↔
      ∃ data, (standard strict room).encode types aligned = .ok data := by
  change _ ↔ ∃ data, encodeArguments _ types aligned = .ok data
  simp only [result_probeEach, List.all_eq_true, encodeArguments_eq_ok_iff, counted, true_and]
  constructor
  · intro able
    obtain ⟨values, coerced⟩ := exists_coerced able
    exact ⟨_, values, coerced, rfl⟩
  · rintro ⟨_, values, coerced, -⟩
    exact isSome_of_coerced coerced

/-- The answer on an element with inputs is how the encoding of the call would end, where an
ordinary mismatch is a refusal. -/
theorem verdict_eq_of_encodeCall (loose : element.takesRawData = false) :
    (standard strict room).verdict arguments named element =
      match (standard strict room).encodeCall element arguments named with
      | .ok _ => .ok true
      | .error error => refuse error := by
  simp only [verdict, canEncode, loose, encodeCall, Bool.false_eq_true, ↓reduceIte]
  cases arranges : (standard strict room).arrange element arguments named with
  | error fault => rfl
  | ok arranged =>
    have counted := Element.length_of_arrange arranges
    cases aligns : (standard strict room).align element arranged with
    | error fault => simp [counted, aligns]
    | ok result =>
      obtain ⟨types, aligned⟩ := result
      have probed : ((standard strict room).probeEach (types.zip aligned)).result = true ↔
          ∃ data, (standard strict room).encode types aligned = .ok data :=
        result_probeEach_eq_ok_iff (Element.length_of_align aligns)
      simp only [counted, aligns, ne_eq, not_true_eq_false, ↓reduceIte, Probed.result_map,
        Outcome.ok_bind]
      -- The arguments are probed at all of their types, or up to the first one that fails.
      cases encoded : (standard strict room).encode types aligned with
      | ok data => rw [probed.2 ⟨data, encoded⟩]
      | error fault =>
        have refused : ((standard strict room).probeEach (types.zip aligned)).result = false := by
          simpa [encoded] using probed
        have mismatch := isMismatch_of_encodeArguments encoded
        simp only [refused, refuse, mismatch, ↓reduceIte]

/-- The answer to whether an element with inputs takes the arguments agrees with what encoding them
comes to. They are taken exactly when they can be arranged, aligned and encoded, and refused exactly
when one of these steps fails with an ordinary mismatch. Every other failure is the answer itself,
and is always about the canonical type of an input that stands for no type; so there is an answer
whenever all of these stand for types. -/
theorem canEncode_outcome (strict : Bool) (room : Nat) {element : Element}
    (loose : element.takesRawData = false) (arguments : List Argument) (named : NamedArguments) :
    let codec := Codec.standard strict room
    let answer := (codec.canEncode element arguments named).result
    let encoded := codec.encodeCall element arguments named
    (answer = .ok true ↔ ∃ arranged types aligned data,
      codec.arrange element arguments named = .ok arranged ∧
      codec.align element arranged = .ok (types, aligned) ∧
      codec.encode types aligned = .ok data) ∧
    (answer = .ok false ↔ ∃ error, encoded = .error error ∧ error.isMismatch = true) ∧
    (∀ error, answer = .error error ↔ encoded = .error error ∧ error.isMismatch = false) ∧
    (∀ error, answer = .error error → ∃ input ∈ element.inputs, ∃ fault,
      AbiType.parse input.canonicalType = .error fault ∧
        error = .invalidType input.canonicalType fault) ∧
    ((∀ input ∈ element.inputs, ∃ type, AbiType.parse input.canonicalType = .ok type) →
      ∃ taken, answer = .ok taken) := by
  intro codec answer encoded
  have agrees : answer = match encoded with
      | .ok _ => .ok true
      | .error error => refuse error := verdict_eq_of_encodeCall loose
  have taken : answer = .ok true ↔ ∃ data, encoded = .ok data := by
    rw [agrees]
    cases encoded <;> simp [refuse_ne_ok_true]
  have blames (error : EncodingError) (failed : answer = .error error) :
      ∃ input ∈ element.inputs, ∃ fault, AbiType.parse input.canonicalType = .error fault ∧
        error = .invalidType input.canonicalType fault := by
    obtain ⟨broken, unarranged | ⟨arranged, -, -, unaligned⟩⟩ :=
      (verdict_eq_error_iff loose).1 failed
    · rw [Element.isMismatch_of_arrange unarranged] at broken
      cases broken
    · exact Element.exists_unparsable_of_align unaligned broken
  refine ⟨?_, ?_, ?_, blames, ?_⟩
  · rw [taken]
    simp only [encoded, encodeCall_eq_ok_iff]
    grind
  · rw [agrees]
    cases encoded <;> simp [refuse_eq_ok_false_iff]
  · intro error
    rw [agrees]
    cases encoded with
    | ok data => simp
    | error fault =>
      rw [refuse_eq_error_iff, Except.error.injEq]
      exact and_congr_right fun same => by rw [same]
  · intro parsable
    cases outcome : answer with
    | ok taken => exact ⟨taken, rfl⟩
    | error error =>
      obtain ⟨input, member, fault, unparsable, -⟩ := blames error outcome
      obtain ⟨type, parsed⟩ := parsable input member
      cases parsed.symm.trans unparsable

/-- A constructor takes a named list and a short byte string when byte strings may be short. When
they must be full, it refuses them, as encoding them would fail. -/
theorem canEncode_outcome_of_short :
    let element : Element :=
      .constructor ⟨[⟨"a", "bytes2", [], none⟩, ⟨"b", "bool[]", [], none⟩], .nonPayable⟩
    let named := NamedArguments.ofList [("b", .list [.bool true])]
    let answer (strict : Bool) :=
      ((Codec.standard strict 4096).canEncode element [.bytes [1]] named).result
    element.takesRawData = false ∧ answer false = .ok true ∧ answer true = .ok false ∧
      (Codec.standard true 4096).encodeCall element [.bytes [1]] named =
        .error (.valueMismatch "bytes2" "bytes") := by
  intro element named answer
  have loose : element.takesRawData = false := rfl
  obtain ⟨taken, -⟩ := canEncode_outcome false 4096 loose [.bytes [1]] named
  obtain ⟨-, refused, -⟩ := canEncode_outcome true 4096 loose [.bytes [1]] named
  let types := ["bytes2", "bool[]"]
  let aligned : List Argument := [.bytes [1], .list [.bool true]]
  let values : List Value := [.fixedBytes (SizedBytes.padRight 32 [1]) 2, .array [.bool true]]
  have arranges : element.arrange [.bytes [1]] named = .ok aligned := rfl
  have aligns : element.align aligned = .ok (types, aligned) := by cbv
  have coerced : List.zipWith (Argument.coerceText false) types aligned = values.map some := by
    cbv
  have encodes : (standard false 4096).encode types aligned =
      .ok (Value.encodeSequence values) := by
    change encodeArguments (Argument.coerceText false) types aligned = _
    rw [encodeArguments_eq_ok_iff]
    exact ⟨rfl, values, coerced, rfl⟩
  have short : (standard true 4096).encodeCall element [.bytes [1]] named =
      .error (.valueMismatch "bytes2" "bytes") := by cbv
  exact ⟨loose, taken.2 ⟨aligned, types, aligned, _, arranges, aligns, encodes⟩,
    refused.2 ⟨_, short, rfl⟩, short⟩

end Codec

end ContractAbi
