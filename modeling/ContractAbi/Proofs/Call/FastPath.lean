import ContractAbi.Proofs.Call.Soundness

/-!
# Calls without arguments

A call without arguments goes to the only candidate unprobed. Probing would have come to the same,
since an element without inputs takes such a call whatever the codec says about types
(`Codec.canEncode_of_no_inputs`). So the lookup is the one that probes every candidate
(`Interface.findElement_eq_findByProbing`).
-/

namespace ContractAbi

namespace Codec

variable {codec : Codec} {named : NamedArguments}

/-- Elements without inputs all take a call without arguments. -/
theorem encodable_of_no_inputs (arranges : codec.arrange = Element.arrange)
    (aligns : codec.align = Element.align) (noneNamed : named.entries = [])
    {elements : List Element} (noInputs : ∀ element ∈ elements, element.inputCount = 0) :
    codec.encodable [] named elements = .unprobed (.ok elements) := by
  induction elements with
  | nil => rfl
  | cons element elements inductionHypothesis =>
    obtain ⟨first, others⟩ := List.forall_mem_cons.1 noInputs
    rw [encodable, canEncode_of_no_inputs arranges aligns noneNamed first,
      inductionHypothesis others]
    rfl

end Codec

namespace Interface

/-- The lookup of a name that probes every element with a fitting argument count. -/
def findByProbing (interface : Interface) (codec : Codec) (name : String)
    (arguments : List Argument) (named : NamedArguments) :
    Probed (Except ResolutionError Element) :=
  let fitting := (interface.named name).filter fun element =>
    element.inputCount = arguments.length + named.size
  (codec.encodable arguments named fitting).map
    (interface.choose name arguments named fitting.length)

variable {interface : Interface} {codec : Codec} {name : String} {arguments : List Argument}
  {named : NamedArguments}

/-- A call without arguments is taken, unprobed, by all of its candidates. -/
theorem findByProbing_of_no_arguments (arranges : codec.arrange = Element.arrange)
    (aligns : codec.align = Element.align) (noneNamed : named.entries = []) :
    interface.findByProbing codec name [] named =
      .unprobed (interface.choose name [] named (interface.candidates name [] named).length
        (.ok (interface.candidates name [] named))) := by
  have taken : codec.encodable [] named (interface.candidates name [] named) =
      .unprobed (.ok (interface.candidates name [] named)) :=
    Codec.encodable_of_no_inputs arranges aligns noneNamed fun _ =>
      inputCount_of_mem_candidates noneNamed
  change (codec.encodable [] named (interface.candidates name [] named)).map _ = _
  rw [taken]
  rfl

/-- Looking up a name and probing every candidate come to the same, probes included. -/
theorem findByName_eq_findByProbing (arranges : codec.arrange = Element.arrange)
    (aligns : codec.align = Element.align) :
    interface.findByName codec name arguments named =
      interface.findByProbing codec name arguments named := by
  by_cases fast : arguments = [] ∧ named.entries = [] ∧
      (interface.candidates name arguments named).length = 1
  · obtain ⟨rfl, noneNamed, single⟩ := fast
    obtain ⟨element, only⟩ := List.length_eq_one_iff.1 single
    rw [findByName_of_only rfl noneNamed only,
      findByProbing_of_no_arguments arranges aligns noneNamed, only]
    rfl
  · rw [findByName_of_not_only fast]
    rfl

/-- A call without arguments that goes to the only candidate unprobed goes where probing would have
sent it. As long as the codec arranges and aligns arguments as the elements do, and whatever else it
does, every lookup of an ordinary name is the one that probes all candidates. So several elements of
a name without inputs are never told apart by a call without arguments, which is ambiguous. -/
theorem findElement_eq_findByProbing {codec : Codec} (arranges : codec.arrange = Element.arrange)
    (aligns : codec.align = Element.align) (interface : Interface) {name : String}
    (ordinary : Identifier.IsOrdinary name) (arguments : List Argument) (named : NamedArguments) :
    interface.findElement codec (.name name) arguments named =
      interface.findByProbing codec name arguments named ∧
    (2 ≤ (interface.named name).countP (fun element => element.inputCount = 0) →
      (interface.findElement codec (.name name) [] .empty).result =
        .error (.unresolved (Diagnosis.ofCall name .ambiguous [] .empty
          ((interface.named name).map Element.signature)))) := by
  refine ⟨?_, ?_⟩
  · rw [findElement_eq_findByName ordinary, findByName_eq_findByProbing arranges aligns]
  · intro several
    have counted : 2 ≤ (interface.candidates name [] .empty).length := by
      rw [List.countP_eq_length_filter] at several
      exact several
    rw [findElement_eq_findByName ordinary, findByName_eq_findByProbing arranges aligns,
      findByProbing_of_no_arguments arranges aligns rfl, Probed.result_unprobed]
    exact choose_of_several (by omega) counted

/-- A codec that lets nothing be encoded sends a call without arguments to the only overload without
inputs, and finds three of them ambiguous. -/
theorem findElement_eq_findByProbing_of_refusal :
    let codec : Codec := { Codec.standard true 4096 with isEncodable := fun _ _ => false }
    let nullary : Element := .function ⟨"f", [], [], .nonPayable⟩
    let unary : Element := .function ⟨"f", [⟨"a", "bool", [], none⟩], [], .nonPayable⟩
    let single : Interface := ⟨[unary, nullary]⟩
    let several : Interface := ⟨[nullary, .error ⟨"f", []⟩, .event ⟨"f", [], true⟩]⟩
    codec.arrange = Element.arrange ∧ codec.align = Element.align ∧ Identifier.IsOrdinary "f" ∧
    (single.findElement codec (.name "f") [] .empty).result = .ok nullary ∧
    (single.findByProbing codec "f" [] .empty).result = .ok nullary ∧
    (several.findElement codec (.name "f") [] .empty).result =
      .error (.unresolved ⟨"f", .ambiguous, "", [], ["f()", "f()", "f()"]⟩) := by
  intro codec nullary unary single several
  have ordinary : Identifier.IsOrdinary "f" := by decide
  have arranges : codec.arrange = Element.arrange := rfl
  have aligns : codec.align = Element.align := rfl
  obtain ⟨agrees, -⟩ := findElement_eq_findByProbing arranges aligns single ordinary [] .empty
  have found : (single.findElement codec (.name "f") [] .empty).result = .ok nullary := rfl
  obtain ⟨-, nullaries⟩ :=
    findElement_eq_findByProbing arranges aligns several ordinary [] .empty
  have ambiguous := nullaries (by decide)
  refine ⟨arranges, aligns, ordinary, found, agrees ▸ found, ?_⟩
  rw [ambiguous]
  cbv

end Interface

end ContractAbi
