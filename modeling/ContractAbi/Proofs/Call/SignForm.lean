import ContractAbi.Proofs.Argument.SignForm
import ContractAbi.Proofs.Call.Soundness

/-!
# Calls with integers in either sign form

Arrangement and alignment move arguments about and look at no integer, so they commute with taking
unsigned forms; coercion, the wording of errors and diagnoses do not tell an argument from its
unsigned form. So calls whose arguments differ in sign forms only are resolved alike
(`Interface.resolve_of_respelled`).
-/

namespace ContractAbi

namespace NamedArguments

/-- The named arguments with their values changed. -/
def mapValues (change : Argument → Argument) (named : NamedArguments) : NamedArguments :=
  ⟨Keyed.mapValues change named.entries, named.ascending.mapValues change⟩

variable (change : Argument → Argument) (named : NamedArguments)

@[simp] theorem entries_mapValues :
    (named.mapValues change).entries = Keyed.mapValues change named.entries := rfl

@[simp] theorem size_mapValues : (named.mapValues change).size = named.size :=
  Keyed.length_mapValues change named.entries

@[simp] theorem isEmpty_mapValues : (named.mapValues change).isEmpty = named.isEmpty :=
  List.isEmpty_map

/-- Named arguments of the same names differ at most in the sign forms of the integers in them. -/
def Respelled (left right : NamedArguments) : Prop :=
  left.entries.map Prod.fst = right.entries.map Prod.fst ∧
    List.Forall₂ Argument.Respelled (left.entries.map Prod.snd) (right.entries.map Prod.snd)

theorem Respelled.mapValues_unsignedForm_eq {left right : NamedArguments}
    (respelled : left.Respelled right) :
    left.mapValues Argument.unsignedForm = right.mapValues Argument.unsignedForm := by
  obtain ⟨keys, values⟩ := respelled
  simp only [mapValues, mk.injEq]
  exact Keyed.mapValues_congr keys
    (Argument.map_unsignedForm_eq (fun _ _ => Argument.Respelled.unsignedForm_eq) values)

end NamedArguments

/-! ## Arrangement -/

namespace Arrangement

variable (change : Argument → Argument)

theorem placeNamed_map (inputs : List Param) (positional : Nat)
    (entries : List (String × Argument)) (slots : List (Option Argument)) :
    placeNamed inputs positional (Keyed.mapValues change entries) (slots.map (Option.map change)) =
      List.map (Option.map change) <$> placeNamed inputs positional entries slots := by
  induction entries generalizing slots with
  | nil => rfl
  | cons entry entries inductionHypothesis =>
    obtain ⟨name, value⟩ := entry
    simp only [Keyed.mapValues_cons, placeNamed]
    cases place? inputs name with
    | none => rfl
    | some place =>
      simp only
      split
      · rfl
      · rw [← inductionHypothesis, List.map_set, Option.map_some]

theorem fillGaps_map (slots : List (Option Argument)) (values : List Argument) :
    fillGaps (slots.map (Option.map change)) (values.map change) =
      (fillGaps slots values).map (Option.map change) := by
  induction slots generalizing values with
  | nil => rfl
  | cons slot slots inductionHypothesis =>
    cases slot with
    | some value => exact congrArg _ (inductionHypothesis values)
    | none =>
      cases values with
      | nil => exact congrArg _ (inductionHypothesis [])
      | cons value values => exact congrArg _ (inductionHypothesis values)

theorem collect_map (inputs : List Param) (slots : List (Option Argument)) :
    collect inputs (slots.map (Option.map change)) = List.map change <$> collect inputs slots := by
  induction inputs generalizing slots with
  | nil => rfl
  | cons input inputs inductionHypothesis =>
    cases slots with
    | nil => rfl
    | cons slot slots =>
      cases slot with
      | none => rfl
      | some value =>
        simp only [List.map_cons, Option.map_some, collect, inductionHypothesis]
        cases collect inputs slots <;> rfl

end Arrangement

/-- Arrangement moves values about, whatever they are. -/
theorem Element.arrange_map (change : Argument → Argument) (element : Element)
    (arguments : List Argument) (named : NamedArguments) :
    element.arrange (arguments.map change) (named.mapValues change) =
      List.map change <$> element.arrange arguments named := by
  have placed := Arrangement.placeNamed_map change element.inputs arguments.length named.entries
    (List.replicate element.inputCount none)
  rw [List.map_replicate, Option.map_none] at placed
  by_cases counted : arguments.length + named.size = element.inputCount
  · simp only [arrange, List.length_map, NamedArguments.size_mapValues, counted, ne_eq,
      not_true_eq_false, ↓reduceIte, NamedArguments.entries_mapValues, placed]
    cases Arrangement.placeNamed element.inputs arguments.length named.entries
      (List.replicate element.inputCount none) with
    | error => rfl
    | ok slots => simp only [Outcome.map_ok, Arrangement.fillGaps_map, Arrangement.collect_map]
  · simp only [arrange, List.length_map, NamedArguments.size_mapValues, counted, ne_eq,
      not_false_eq_true, ↓reduceIte, Outcome.map_error]

/-! ## Alignment -/

namespace Alignment

open Argument (unsignedForm)

theorem takeComponents_mapValues (change : Argument → Argument) (type : String)
    (components : List Param) (entries : List (String × Argument)) :
    takeComponents type components (Keyed.mapValues change entries) =
      List.map change <$> takeComponents type components entries := by
  induction components generalizing entries with
  | nil => cases entries <;> rfl
  | cons component components inductionHypothesis =>
    simp only [takeComponents, Keyed.lookup_mapValues]
    cases entries.lookup component.name with
    | none => rfl
    | some value =>
      have others := Keyed.filter_mapValues change (fun key => key ≠ component.name) entries
      simp only [Option.map_some, others, inductionHypothesis]
      cases takeComponents type components (entries.filter fun entry =>
        entry.1 ≠ component.name) <;> rfl

theorem componentValues_unsignedForm (type : String) (components : List Param)
    (argument : Argument) :
    componentValues type components argument.unsignedForm =
      List.map unsignedForm <$> componentValues type components argument := by
  cases argument with
  | int number =>
    rw [unsignedForm]
    cases (Argument.int number).unsigned? <;> rfl
  | list items =>
    simp only [Argument.unsignedForm_list, componentValues, List.length_map]
    split <;> rfl
  | map entries =>
    simp only [Argument.unsignedForm_map, componentValues, takeComponents_mapValues]
  | _ => rfl

/-- Above the level of a leaf a list is aligned item by item, and nothing else is. -/
theorem alignLevels_succ (type : String) (leaf : Argument → Except EncodingError Argument)
    (levels : Nat) (argument : Argument) :
    alignLevels type leaf (levels + 1) argument =
      match argument.list? with
      | some items => .list <$> items.mapM (alignLevels type leaf levels)
      | none => .error (.expectedComposite type) := by
  cases argument <;> rfl

theorem alignLevels_unsignedForm (type : String) {leaf : Argument → Except EncodingError Argument}
    (commutes : ∀ argument, leaf argument.unsignedForm = unsignedForm <$> leaf argument)
    (levels : Nat) (argument : Argument) :
    alignLevels type leaf levels argument.unsignedForm =
      unsignedForm <$> alignLevels type leaf levels argument := by
  induction levels generalizing argument with
  | zero => exact commutes argument
  | succ levels inductionHypothesis =>
    simp only [alignLevels_succ, Argument.list?_unsignedForm]
    cases argument.list? with
    | none => rfl
    | some items =>
      simp only [Option.map_some, Outcome.mapM_map inductionHypothesis]
      cases items.mapM (alignLevels type leaf levels) with
      | error => rfl
      | ok aligned => simp

theorem alignEach_map_unsignedForm {params : List Param}
    (each : ∀ param ∈ params, ∀ argument,
      align param argument.unsignedForm = unsignedForm <$> align param argument)
    (arguments : List Argument) :
    alignEach params (arguments.map unsignedForm) =
      List.map unsignedForm <$> alignEach params arguments := by
  induction params generalizing arguments with
  | nil => rfl
  | cons param params inductionHypothesis =>
    cases arguments with
    | nil => rfl
    | cons argument arguments =>
      obtain ⟨first, others⟩ := List.forall_mem_cons.1 each
      rw [List.map_cons, alignEach, alignEach, first, inductionHypothesis others]
      cases align param argument with
      | error => rfl
      | ok => cases alignEach params arguments <;> rfl

theorem align_unsignedForm (param : Param) (argument : Argument) :
    align param argument.unsignedForm = unsignedForm <$> align param argument := by
  induction param generalizing argument with
  | mk name type components internalType inductionHypothesis =>
    simp only [align]
    cases Param.tupleSuffix? type with
    | none => rfl
    | some suffix =>
      refine alignLevels_unsignedForm _ ?_ _ argument
      intro argument
      rw [componentValues_unsignedForm]
      cases componentValues (Param.canonicalType ⟨name, type, components, internalType⟩) components
        argument with
      | error => rfl
      | ok values =>
        simp only [Outcome.map_ok, Outcome.ok_bind, alignEach_map_unsignedForm inductionHypothesis]
        cases alignEach components values with
        | error => rfl
        | ok aligned => simp

theorem alignInputs_map_unsignedForm (inputs : List Param) (arguments : List Argument) :
    alignInputs inputs (arguments.map unsignedForm) =
      Prod.map id (List.map unsignedForm) <$> alignInputs inputs arguments := by
  induction inputs generalizing arguments with
  | nil => rfl
  | cons input inputs inductionHypothesis =>
    cases arguments with
    | nil => rfl
    | cons argument arguments =>
      simp only [List.map_cons, alignInputs, align_unsignedForm, inductionHypothesis]
      cases AbiType.parse input.canonicalType with
      | error => rfl
      | ok =>
        cases align input argument with
        | error => rfl
        | ok => cases alignInputs inputs arguments <;> rfl

end Alignment

open Argument (unsignedForm)

theorem Element.align_map_unsignedForm (element : Element) (arguments : List Argument) :
    element.align (arguments.map unsignedForm) =
      Prod.map id (List.map unsignedForm) <$> element.align arguments := by
  simp only [align, List.length_map, Alignment.alignInputs_map_unsignedForm]
  split <;> rfl

/-! ## Encoding -/

namespace Codec

variable (strict : Bool) (room : Nat)

theorem coerceArguments_map_unsignedForm (types : List String) (arguments : List Argument) :
    coerceArguments (Argument.coerceText strict) types (arguments.map unsignedForm) =
      coerceArguments (Argument.coerceText strict) types arguments := by
  induction types generalizing arguments with
  | nil => rfl
  | cons type types inductionHypothesis =>
    cases arguments with
    | nil => rfl
    | cons argument arguments =>
      simp only [List.map_cons, coerceArguments, Argument.coerceText_unsignedForm,
        Argument.readableType_unsignedForm, inductionHypothesis]

theorem encode_map_unsignedForm (types : List String) (arguments : List Argument) :
    (standard strict room).encode types (arguments.map unsignedForm) =
      (standard strict room).encode types arguments := by
  change encodeArguments (Argument.coerceText strict) types _ =
    encodeArguments (Argument.coerceText strict) types _
  simp only [encodeArguments, List.length_map, coerceArguments_map_unsignedForm]

theorem probeEach_map_unsignedForm (types : List String) (arguments : List Argument) :
    (standard strict room).probeEach (types.zip (arguments.map unsignedForm)) =
      (standard strict room).probeEach (types.zip arguments) := by
  induction types generalizing arguments with
  | nil => rfl
  | cons type types inductionHypothesis =>
    cases arguments with
    | nil => rfl
    | cons argument arguments =>
      have same : (standard strict room).isEncodable type argument.unsignedForm =
          (standard strict room).isEncodable type argument :=
        congrArg Option.isSome (Argument.coerceText_unsignedForm strict type argument)
      simp only [List.map_cons, List.zip_cons_cons, probeEach, same, inductionHypothesis]

variable (arguments : List Argument) (named : NamedArguments)

theorem arrange_unsignedForm (element : Element) :
    (standard strict room).arrange element (arguments.map unsignedForm)
        (named.mapValues unsignedForm) =
      List.map unsignedForm <$> (standard strict room).arrange element arguments named :=
  element.arrange_map unsignedForm arguments named

theorem align_unsignedForm (element : Element) :
    (standard strict room).align element (arguments.map unsignedForm) =
      Prod.map id (List.map unsignedForm) <$> (standard strict room).align element arguments :=
  element.align_map_unsignedForm arguments

/-- An element takes the arguments when it takes their unsigned forms. -/
theorem canEncode_unsignedForm (element : Element) :
    (standard strict room).canEncode element (arguments.map unsignedForm)
        (named.mapValues unsignedForm) =
      (standard strict room).canEncode element arguments named := by
  simp only [canEncode, arrange_unsignedForm]
  cases (standard strict room).arrange element arguments named with
  | error => rfl
  | ok arranged =>
    simp only [Outcome.map_ok, List.length_map, align_unsignedForm]
    cases (standard strict room).align element arranged with
    | error => rfl
    | ok result => simp only [Outcome.map_ok, Prod.map, id, probeEach_map_unsignedForm]

theorem encodable_unsignedForm (elements : List Element) :
    (standard strict room).encodable (arguments.map unsignedForm) (named.mapValues unsignedForm)
        elements =
      (standard strict room).encodable arguments named elements := by
  induction elements with
  | nil => rfl
  | cons element elements inductionHypothesis =>
    simp only [encodable, canEncode_unsignedForm, inductionHypothesis]

end Codec

/-! ## Resolution -/

section Resolution

variable (strict : Bool) (room : Nat) (arguments : List Argument) (named : NamedArguments)

theorem Diagnosis.ofCall_unsignedForm (identifier : String) (reason : Reason)
    (signatures : List String) :
    ofCall identifier reason (arguments.map unsignedForm) (named.mapValues unsignedForm)
        signatures =
      ofCall identifier reason arguments named signatures := by
  have rendered (argument : Argument) : Argument.renderTypes [argument.unsignedForm] =
      Argument.renderTypes [argument] := Argument.renderTypes_map_unsignedForm [argument]
  simp only [ofCall, Argument.renderTypes_map_unsignedForm, NamedArguments.entries_mapValues,
    Keyed.mapValues, List.map_map, Function.comp_def, rendered]

namespace Interface

variable (interface : Interface)

/-- The element that is found does not depend on sign forms, nor does the account of a failure. -/
theorem findElement_unsignedForm (identifier : Identifier) :
    interface.findElement (.standard strict room) identifier (arguments.map unsignedForm)
        (named.mapValues unsignedForm) =
      interface.findElement (.standard strict room) identifier arguments named := by
  have chosen (name : String) (fitting : Nat) :
      interface.choose name (arguments.map unsignedForm) (named.mapValues unsignedForm) fitting =
        interface.choose name arguments named fitting := by
    funext found
    unfold choose
    simp only [Diagnosis.ofCall_unsignedForm]
  simp only [findElement, findByName, List.length_map, List.isEmpty_map,
    NamedArguments.size_mapValues, NamedArguments.isEmpty_mapValues, chosen,
    Codec.encodable_unsignedForm]

end Interface

namespace ResolvedCall

/-- The call with the unsigned forms of its arguments. -/
def unsignedForm (call : ResolvedCall) : ResolvedCall :=
  { call with arguments := call.arguments.map Argument.unsignedForm }

theorem encodeInput_unsignedForm (call : ResolvedCall) :
    call.unsignedForm.encodeInput (.standard strict room) =
      call.encodeInput (.standard strict room) := by
  simp only [encodeInput, unsignedForm, Codec.encode_map_unsignedForm]

theorem ofElement_unsignedForm (element : Element) :
    ofElement (.standard strict room) element (arguments.map Argument.unsignedForm)
        (named.mapValues Argument.unsignedForm) =
      unsignedForm <$> ofElement (.standard strict room) element arguments named := by
  simp only [ofElement, Codec.arrange_unsignedForm]
  cases element.takesRawData with
  | true => rfl
  | false =>
    cases (Codec.standard strict room).arrange element arguments named with
    | error => rfl
    | ok arranged =>
      simp only [Outcome.map_ok, Outcome.ok_bind, Codec.align_unsignedForm]
      cases (Codec.standard strict room).align element arranged with
      | error => rfl
      | ok result => rfl

/-- Two calls are to one element with one selector and one list of types, and have one input. -/
structure Agrees (codec : Codec) (left right : ResolvedCall) : Prop where
  element : left.element = right.element
  selector? : left.selector? = right.selector?
  types : left.types = right.types
  input : left.encodeInput codec = right.encodeInput codec

theorem agrees_of_unsignedForm_eq {left right : ResolvedCall}
    (same : left.unsignedForm = right.unsignedForm) :
    left.Agrees (.standard strict room) right where
  element := show left.unsignedForm.element = right.unsignedForm.element by rw [same]
  selector? := show left.unsignedForm.selector? = right.unsignedForm.selector? by rw [same]
  types := show left.unsignedForm.types = right.unsignedForm.types by rw [same]
  input := by rw [← encodeInput_unsignedForm strict room left, same, encodeInput_unsignedForm]

end ResolvedCall

namespace Interface

variable (interface : Interface)

theorem resolve_unsignedForm (identifier : Identifier) :
    (interface.resolve (.standard strict room) identifier (arguments.map unsignedForm)
        (named.mapValues unsignedForm)).result =
      ResolvedCall.unsignedForm <$>
        (interface.resolve (.standard strict room) identifier arguments named).result := by
  simp only [resolve, findElement_unsignedForm, Probed.result_map]
  cases (interface.findElement (.standard strict room) identifier arguments named).result with
  | error => rfl
  | ok element =>
    simp only [Outcome.ok_bind, ResolvedCall.ofElement_unsignedForm]
    cases ResolvedCall.ofElement (.standard strict room) element arguments named <;> rfl

/-- Integers are taken by their number alone. Each integer type takes exactly the numbers in its
range; arguments that differ in sign forms only are coerced alike at every type, and calls with such
arguments are resolved to calls that agree, or fail with one error. -/
theorem resolve_of_respelled (strict : Bool) (room : Nat) :
    (∀ width, Argument.TakesIntegers strict (.uint width) 0 (2 ^ width.1)) ∧
    (∀ width,
      Argument.TakesIntegers strict (.int width) (-2 ^ (width.1 - 1)) (2 ^ (width.1 - 1))) ∧
    (∀ {left right : Argument}, left.Respelled right → ∀ text,
      Argument.coerceText strict text left = Argument.coerceText strict text right) ∧
    ∀ (interface : Interface) (identifier : Identifier) {lefts rights : List Argument}
      {left right : NamedArguments}, List.Forall₂ Argument.Respelled lefts rights →
      left.Respelled right →
      let outcome (arguments : List Argument) (named : NamedArguments) :=
        (interface.resolve (.standard strict room) identifier arguments named).result
      (∀ error, outcome lefts left = .error error ↔ outcome rights right = .error error) ∧
      ∀ call, outcome lefts left = .ok call →
        ∃ other, outcome rights right = .ok other ∧ call.Agrees (.standard strict room) other := by
  refine ⟨Argument.takesIntegers_uint strict, Argument.takesIntegers_int strict, ?_, ?_⟩
  · intro left right respelled text
    rw [← Argument.coerceText_unsignedForm, respelled.unsignedForm_eq,
      Argument.coerceText_unsignedForm]
  · intro interface identifier lefts rights left right positional named outcome
    have same : ResolvedCall.unsignedForm <$> outcome lefts left =
        ResolvedCall.unsignedForm <$> outcome rights right := by
      simp only [outcome, ← resolve_unsignedForm]
      rw [Argument.map_unsignedForm_eq (fun _ _ => Argument.Respelled.unsignedForm_eq) positional,
        named.mapValues_unsignedForm_eq]
    constructor
    · intro error
      rw [← Outcome.map_eq_error, same, Outcome.map_eq_error]
    · intro call resolved
      rw [resolved, Outcome.map_ok, eq_comm, Outcome.map_eq_ok] at same
      obtain ⟨other, otherResolved, agree⟩ := same
      exact ⟨other, otherResolved, ResolvedCall.agrees_of_unsignedForm_eq strict room agree.symm⟩

/-- Integers in a tuple and beside it can change their sign forms. -/
theorem resolve_of_respelled_of_tuple :
    let tuple : Param :=
      ⟨"a", "tuple", [⟨"x", "uint8", [], none⟩, ⟨"y", "int8[]", [], none⟩], none⟩
    let function : Element := .function ⟨"f", [tuple, ⟨"b", "int16", [], none⟩], [], .nonPayable⟩
    let interface : Interface := ⟨[function]⟩
    let lefts : List Argument := [.map [("x", .int ⟨5, by decide, by decide⟩),
      ("y", .list [.uint ⟨3, by decide⟩, .int ⟨-1, by decide, by decide⟩])]]
    let rights : List Argument := [.map [("x", .uint ⟨5, by decide⟩),
      ("y", .list [.int ⟨3, by decide, by decide⟩, .int ⟨-1, by decide, by decide⟩])]]
    let left := NamedArguments.ofList [("b", .uint ⟨7, by decide⟩)]
    let right := NamedArguments.ofList [("b", .int ⟨7, by decide, by decide⟩)]
    let outcome (arguments : List Argument) (named : NamedArguments) :=
      (interface.resolve (.standard true 4096) (.name "f") arguments named).result
    List.Forall₂ Argument.Respelled lefts rights ∧ left.Respelled right ∧
      ∃ call other, outcome lefts left = .ok call ∧ outcome rights right = .ok other ∧
        call.element = function ∧ call.Agrees (.standard true 4096) other := by
  intro tuple function interface lefts rights left right outcome
  have positional : List.Forall₂ Argument.Respelled lefts rights :=
    .cons (.map rfl (.cons (.number rfl rfl)
      (.cons (.list (.cons (.number rfl rfl) (.cons (.same _) .nil))) .nil))) .nil
  have named : left.Respelled right := ⟨rfl, .cons (.number rfl rfl) .nil⟩
  let codec := Codec.standard true 4096
  let types := ["(uint8,int8[])", "int16"]
  let arranged : List Argument := lefts ++ [.uint ⟨7, by decide⟩]
  let aligned : List Argument := [.list [.int ⟨5, by decide, by decide⟩,
    .list [.uint ⟨3, by decide⟩, .int ⟨-1, by decide, by decide⟩]], .uint ⟨7, by decide⟩]
  have found : (interface.findElement codec (.name "f") lefts left).result = .ok function := by cbv
  have arranges : codec.arrange function lefts left = .ok arranged := by cbv
  have aligns : codec.align function arranged = .ok (types, aligned) := by cbv
  have loose : function.takesRawData = false := rfl
  obtain ⟨call, made⟩ : ∃ call, ResolvedCall.ofElement codec function lefts left = .ok call :=
    ⟨_, ResolvedCall.ofElement_eq_ok loose arranges aligns⟩
  have resolved : outcome lefts left = .ok call := resolve_eq_ok_iff.2 ⟨function, found, made⟩
  obtain ⟨-, -, -, calls⟩ := resolve_of_respelled true 4096
  obtain ⟨-, others⟩ := calls interface (.name "f") positional named
  obtain ⟨other, otherResolved, agrees⟩ := others call resolved
  exact ⟨positional, named, call, other, resolved, otherResolved,
    ResolvedCall.element_of_ofElement made, agrees⟩

end Interface

end Resolution

end ContractAbi
