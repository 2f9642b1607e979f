import ContractAbi.Proofs.Call.Arrangement
import ContractAbi.Proofs.Call.Soundness

/-!
# Dedicated identifiers

The constructor, the fallback and the receive function are found by identifiers of their own, which
find nothing else, and every other element is found by its own name, if that is ordinary
(`Interface.ordinary_of_findElement`). A constructor is not probed when it is found, so arguments
that do not fit it are refused later: when they are arranged or aligned, or when the call is encoded
(`ResolvedCall.encodeInput_iff_verdict`).
-/

namespace ContractAbi

namespace Identifier

/-- The identifiers that stand for a kind of elements without names: two that are no names, and the
words for the kinds. -/
inductive Dedicated : Identifier → ElementKind → Prop where
  | fallback : Dedicated .fallback .fallback
  | fallbackWord : Dedicated (.name "fallback") .fallback
  | receive : Dedicated .receive .receive
  | receiveWord : Dedicated (.name "receive") .receive
  | constructorWord : Dedicated (.name "constructor") .constructor

variable {identifier : Identifier} {kind : ElementKind}

theorem Dedicated.isNamed_eq_false (dedicated : identifier.Dedicated kind) :
    kind.isNamed = false := by
  cases dedicated <;> rfl

theorem Dedicated.lookup_eq (dedicated : identifier.Dedicated kind) :
    identifier.lookup = .ofKind kind := by
  cases dedicated <;> rfl

/-- Dedicated identifiers, and no others, are looked up by kind. -/
theorem dedicated_of_lookup (isKind : identifier.lookup = .ofKind kind) :
    identifier.Dedicated kind := by
  cases identifier with
  | fallback =>
    cases isKind
    exact .fallback
  | receive =>
    cases isKind
    exact .receive
  | name text =>
    simp only [lookup] at isKind
    split at isKind
    · next isFallback =>
      cases isKind
      exact isFallback ▸ .fallbackWord
    split at isKind
    · next isReceive =>
      cases isKind
      exact isReceive ▸ .receiveWord
    split at isKind
    · cases isKind
    split at isKind
    · next isConstructor =>
      cases isKind
      exact isConstructor ▸ .constructorWord
    · cases isKind

end Identifier

namespace Interface

/-- The element stands at the only position of its kind. -/
def Sole (interface : Interface) (kind : ElementKind) (element : Element) : Prop :=
  ∃ before after, interface.elements = before ++ element :: after ∧ element.kind = kind ∧
    ∀ other ∈ before ++ after, other.kind ≠ kind

variable {interface : Interface} {codec : Codec} {identifier : Identifier} {kind : ElementKind}
  {element : Element} {arguments : List Argument} {named : NamedArguments}

theorem ofKind_eq_singleton_iff : interface.ofKind kind = [element] ↔
    interface.Sole kind element := by
  simp only [ofKind, filter_eq_singleton_iff, Sole, decide_eq_true_eq, decide_eq_false_iff_not]

/-- The only element of a kind is found. -/
theorem onlyOfKind_eq_ok_iff : interface.onlyOfKind kind = .ok element ↔
    interface.Sole kind element := by
  rw [← ofKind_eq_singleton_iff, onlyOfKind]
  match interface.ofKind kind with
  | [] | [_] | _ :: _ :: _ => simp

/-- No element of a kind is found when there is none or more than one. -/
theorem onlyOfKind_of_not_sole (several : ¬∃ element, interface.Sole kind element) :
    interface.onlyOfKind kind = .error (.notFound kind) := by
  simp only [← ofKind_eq_singleton_iff] at several
  rw [onlyOfKind]
  split
  · next element only => exact absurd ⟨element, only⟩ several
  · rfl

theorem findElement_of_dedicated (dedicated : identifier.Dedicated kind) :
    (interface.findElement codec identifier arguments named).result =
      interface.onlyOfKind kind := by
  rw [findElement, dedicated.lookup_eq]
  rfl

/-- A function, event or error is found by its own name only, which is ordinary. -/
theorem ordinary_of_findElement
    (found : (interface.findElement codec identifier arguments named).result = .ok element)
    (namedKind : element.kind.isNamed = true) :
    ∃ name, identifier = .name name ∧ element.name? = some name ∧
      Identifier.IsOrdinary name := by
  cases place : identifier.lookup with
  | nowhere =>
    rw [findElement, place] at found
    cases found
  | ofKind kind =>
    have dedicated := Identifier.dedicated_of_lookup place
    rw [findElement_of_dedicated dedicated, onlyOfKind_eq_ok_iff] at found
    obtain ⟨_, _, -, rfl, -⟩ := found
    rw [dedicated.isNamed_eq_false] at namedKind
    cases namedKind
  | ofName name =>
    obtain ⟨rfl, ordinary⟩ := (Identifier.lookup_eq_ofName_iff _ _).1 place
    rw [findElement_eq_findByName ordinary] at found
    obtain ⟨candidate, -⟩ := mem_candidates_of_findByName found
    obtain ⟨-, -, sameName, -⟩ := mem_candidates_iff.1 candidate
    exact ⟨name, rfl, sameName, ordinary⟩

/-- Names that are no words for kinds find elements with names. -/
theorem isNamed_of_findElement {name : String} (noFallback : name ≠ "fallback")
    (noReceive : name ≠ "receive") (noConstructor : name ≠ "constructor")
    (found : (interface.findElement codec (.name name) arguments named).result = .ok element) :
    element.kind.isNamed = true := by
  by_cases empty : name = ""
  · subst empty
    cases found
  · rw [findElement_eq_findByName ⟨empty, noFallback, noReceive, noConstructor⟩] at found
    obtain ⟨candidate, -⟩ := mem_candidates_of_findByName found
    exact (mem_candidates_iff.1 candidate).2.1

end Interface

theorem Element.kind_eq_constructor_iff {element : Element} :
    element.kind = .constructor ↔ ∃ declaration, element = .constructor declaration := by
  cases element <;> simp [kind]

namespace ResolvedCall

variable {strict : Bool} {room : Nat} {element : Element} {arguments : List Argument}
  {named : NamedArguments}

/-- A call without a selector is encoded as its arguments alone. -/
theorem encodeInput_of_unnamed {call : ResolvedCall} {codec : Codec}
    (unnamed : call.selector? = none) :
    call.encodeInput codec = codec.encode call.types call.arguments := by
  rw [encodeInput, unnamed]
  cases codec.encode call.types call.arguments <;> rfl

/-- A call to what takes raw data has nothing in it. -/
theorem ofElement_of_takesRawData (raw : element.takesRawData = true) :
    ofElement (.standard strict room) element arguments named = .ok ⟨element, none, [], []⟩ := by
  cases element with
  | fallback | receive => rfl
  | function | constructor | event | error => cases raw

/-- The first argument of the call that is not coerced at its type. -/
def FirstMisfit (call : ResolvedCall) (codec : Codec) (type : String) (argument : Argument) :
    Prop :=
  ∃ before after, call.types.zip call.arguments = before ++ (type, argument) :: after ∧
    (∀ entry ∈ before, (codec.coerce entry.1 entry.2).isSome = true) ∧
    codec.coerce type argument = none

/-- Arguments that are arranged and aligned are taken when each of them can be coerced. -/
theorem verdict_iff_coerced {arranged aligned : List Argument} {types : List String}
    (loose : element.takesRawData = false)
    (arranges : element.arrange arguments named = .ok arranged)
    (aligns : element.align arranged = .ok (types, aligned)) :
    (Codec.standard strict room).verdict arguments named element = .ok true ↔
      ∀ entry ∈ types.zip aligned,
        ((Codec.standard strict room).coerce entry.1 entry.2).isSome = true := by
  rw [Codec.verdict_eq_ok_true_iff loose]
  constructor
  · rintro ⟨_, _, _, sameArranged, -, sameAligned, able⟩
    obtain rfl := Except.ok.inj (arranges.symm.trans sameArranged)
    obtain ⟨rfl, rfl⟩ := Prod.mk.inj (Except.ok.inj (aligns.symm.trans sameAligned))
    exact able
  · intro able
    exact ⟨arranged, types, aligned, arranges, Element.length_of_arrange arranges, aligns, able⟩

/-- A call is encoded exactly when its element takes the arguments, and otherwise the first argument
that does not fit is to blame. -/
theorem encodeInput_iff_verdict {call : ResolvedCall} (loose : element.takesRawData = false)
    (made : ofElement (.standard strict room) element arguments named = .ok call) :
    ((∃ data, call.encodeInput (.standard strict room) = .ok data) ↔
      (Codec.standard strict room).verdict arguments named element = .ok true) ∧
    ((Codec.standard strict room).verdict arguments named element ≠ .ok true →
      ∃ type argument, call.FirstMisfit (.standard strict room) type argument ∧
        call.encodeInput (.standard strict room) =
          .error (.valueMismatch type argument.readableType)) := by
  obtain ⟨arranged, types, aligned, arranges, aligns, rfl⟩ := (ofElement_eq_ok_iff loose).1 made
  have taken : (Codec.standard strict room).verdict arguments named element = .ok true ↔ _ :=
    verdict_iff_coerced loose arranges aligns
  have counted := Element.length_of_align aligns
  have steps : encodeInput ⟨element, (Codec.standard strict room).selector? element, types, aligned⟩
      (.standard strict room) = ((element.selector?.map Subtype.val).getD [] ++ ·) <$>
        Value.encodeSequence <$>
          coerceArguments (Codec.standard strict room).coerce types aligned := by
    simp only [encodeInput, Codec.standard, encodeArguments, counted, ne_eq, not_true_eq_false,
      ↓reduceIte]
  rw [steps]
  cases outcome : coerceArguments (Codec.standard strict room).coerce types aligned with
  | ok values =>
    have able := taken.2 (isSome_of_coerced (coerceArguments_eq_ok_iff.1 outcome))
    exact ⟨iff_of_true ⟨_, rfl⟩ able, fun unable => absurd able unable⟩
  | error error =>
    obtain ⟨before, type, argument, after, split, fine, failed, rfl⟩ :=
      coerceArguments_eq_error_iff.1 outcome
    have unable : (Codec.standard strict room).verdict arguments named element ≠ .ok true := by
      intro able
      have coerced := taken.1 able (type, argument) (by simp [split])
      simp only [failed, Option.isSome_none, Bool.false_eq_true] at coerced
    refine ⟨iff_of_false (by simp) unable, ?_⟩
    intro _
    exact ⟨type, argument, ⟨before, after, split, fine, failed⟩, rfl⟩

end ResolvedCall

namespace Interface

variable {interface : Interface} {codec : Codec} {identifier : Identifier} {element : Element}
  {arguments : List Argument} {named : NamedArguments}

/-- Once an element is found, resolution is the call to it. -/
theorem resolve_of_findElement
    (found : (interface.findElement codec identifier arguments named).result = .ok element) :
    (interface.resolve codec identifier arguments named).result =
      (ResolvedCall.ofElement codec element arguments named).mapError .encoding := by
  rw [resolve, Probed.result_map, found, Outcome.ok_bind]

/-- Dedicated identifiers and names never cross. A dedicated identifier finds the only element of
its kind, and fails when there is none or more than one, whatever else is declared. A function,
event or error is found by its own name, if that is ordinary, and names other than the words for
kinds find nothing else. A call to the fallback or the receive function ignores its arguments and
has no data. A call to the constructor arranges and aligns its arguments, and the errors of that are
its own; it has no selector, and is encoded when the constructor takes the arguments, or else blames
the first one that does not fit. -/
theorem findElement_of_dedicated_or_named (strict : Bool) (room : Nat) (interface : Interface)
    (arguments : List Argument) (named : NamedArguments) :
    let codec := Codec.standard strict room
    let found (identifier : Identifier) :=
      (interface.findElement codec identifier arguments named).result
    let resolved (identifier : Identifier) :=
      (interface.resolve codec identifier arguments named).result
    (∀ identifier kind, identifier.Dedicated kind →
      (∀ element, found identifier = .ok element ↔ interface.Sole kind element) ∧
      ((¬∃ element, interface.Sole kind element) →
        found identifier = .error (.notFound kind))) ∧
    (∀ identifier element, found identifier = .ok element → element.kind.isNamed = true →
      ∃ name, identifier = .name name ∧ element.name? = some name ∧
        Identifier.IsOrdinary name) ∧
    (∀ name element, name ≠ "fallback" → name ≠ "receive" → name ≠ "constructor" →
      found (.name name) = .ok element → element.kind.isNamed = true) ∧
    (∀ identifier element, found identifier = .ok element → element.takesRawData = true →
      ∃ call, resolved identifier = .ok call ∧ call.element = element ∧ call.selector? = none ∧
        call.types = [] ∧ call.arguments = [] ∧ call.encodeInput codec = .ok []) ∧
    ∀ element, interface.Sole .constructor element →
      resolved (.name "constructor") = Except.mapError .encoding (do
        let arranged ← element.arrange arguments named
        let (types, aligned) ← element.align arranged
        return ⟨element, none, types, aligned⟩) ∧
      ∀ call, resolved (.name "constructor") = .ok call →
        call.encodeInput codec = codec.encode call.types call.arguments ∧
        ((∃ data, call.encodeInput codec = .ok data) ↔
          (codec.canEncode element arguments named).result = .ok true) ∧
        ((codec.canEncode element arguments named).result ≠ .ok true →
          ∃ type argument, call.FirstMisfit codec type argument ∧
            call.encodeInput codec = .error (.valueMismatch type argument.readableType)) := by
  intro codec found resolved
  refine ⟨?_, fun _ _ => ordinary_of_findElement, fun _ _ => isNamed_of_findElement, ?_, ?_⟩
  · intro identifier kind dedicated
    simp only [found, findElement_of_dedicated dedicated]
    exact ⟨fun _ => onlyOfKind_eq_ok_iff, onlyOfKind_of_not_sole⟩
  · intro identifier element isFound raw
    refine ⟨⟨element, none, [], []⟩, ?_, rfl, rfl, rfl, rfl, rfl⟩
    simp only [resolved, resolve_of_findElement isFound,
      ResolvedCall.ofElement_of_takesRawData raw, codec, Outcome.mapError_ok]
  · intro element sole
    have isFound : found (.name "constructor") = .ok element := by
      simp only [found, findElement_of_dedicated .constructorWord]
      exact onlyOfKind_eq_ok_iff.2 sole
    have calls : resolved (.name "constructor") =
        (ResolvedCall.ofElement codec element arguments named).mapError .encoding :=
      resolve_of_findElement isFound
    obtain ⟨_, _, -, isConstructor, -⟩ := sole
    obtain ⟨_, rfl⟩ := Element.kind_eq_constructor_iff.1 isConstructor
    refine ⟨calls, ?_⟩
    intro call called
    have made := Outcome.mapError_eq_ok.1 (calls.symm.trans called)
    refine ⟨?_, ResolvedCall.encodeInput_iff_verdict rfl made⟩
    obtain ⟨_, _, _, -, -, rfl⟩ := (ResolvedCall.ofElement_eq_ok_iff rfl).1 made
    exact ResolvedCall.encodeInput_of_unnamed rfl

/-- A constructor and a fallback are found among elements with the words for kinds as names. The
fallback ignores the arguments, and the constructor refuses a short byte string only when the call
is encoded. -/
theorem findElement_of_dedicated_or_named_of_constructor :
    let function : Element := .function ⟨"constructor", [], [], .nonPayable⟩
    let constructor : Element :=
      .constructor ⟨[⟨"a", "bool", [], none⟩, ⟨"b", "bytes2", [], none⟩], .nonPayable⟩
    let event : Element := .event ⟨"fallback", [], false⟩
    let fallback : Element := .fallback .payable
    let interface : Interface := ⟨[function, constructor, event, fallback]⟩
    let arguments : List Argument := [.bool true, .bytes [1]]
    interface.Sole .constructor constructor ∧ interface.Sole .fallback fallback ∧
      (∃ call,
        (interface.resolve (.standard true 4096) (.name "fallback") arguments .empty).result =
          .ok call ∧
        call.element = fallback ∧ call.encodeInput (.standard true 4096) = .ok []) ∧
      ∃ call,
        (interface.resolve (.standard true 4096) (.name "constructor") arguments .empty).result =
          .ok call ∧
        call.element = constructor ∧
        call.encodeInput (.standard true 4096) = .error (.valueMismatch "bytes2" "bytes") := by
  intro function constructor event fallback interface arguments
  have sole : interface.Sole .constructor constructor :=
    ⟨[function], [event, fallback], rfl, rfl, by decide⟩
  have soleFallback : interface.Sole .fallback fallback :=
    ⟨[function, constructor, event], [], rfl, rfl, by decide⟩
  obtain ⟨finds, -, -, ignores, construct⟩ :=
    findElement_of_dedicated_or_named true 4096 interface arguments .empty
  obtain ⟨isFallback, -⟩ := finds (.name "fallback") .fallback .fallbackWord
  obtain ⟨fallbackCall, fallbackCalled, fallbackElement, -, -, -, noData⟩ :=
    ignores (.name "fallback") fallback ((isFallback fallback).2 soleFallback) rfl
  obtain ⟨steps, calls⟩ := construct constructor sole
  let call : ResolvedCall := ⟨constructor, none, ["bool", "bytes2"], arguments⟩
  have arranges : constructor.arrange arguments .empty = .ok arguments := rfl
  have aligns : constructor.align arguments = .ok (["bool", "bytes2"], arguments) := by cbv
  have called :
      (interface.resolve (.standard true 4096) (.name "constructor") arguments .empty).result =
        .ok call := by
    refine steps.trans ?_
    rw [arranges, Outcome.ok_bind, aligns]
    rfl
  have short : (Codec.standard true 4096).coerce "bytes2" (.bytes [1]) = none := by cbv
  have refused : (Codec.standard true 4096).verdict arguments .empty constructor ≠ .ok true := by
    intro taken
    have coerced := (ResolvedCall.verdict_iff_coerced rfl arranges aligns).1 taken
      ("bytes2", .bytes [1]) (by simp [arguments])
    simp [short] at coerced
  have flag : ((Codec.standard true 4096).coerce "bool" (.bool true)).isSome = true := by cbv
  obtain ⟨-, -, blames⟩ := calls call called
  obtain ⟨type, argument, ⟨before, after, split, -, failed⟩, blamed⟩ := blames refused
  refine ⟨sole, soleFallback, ⟨fallbackCall, fallbackCalled, fallbackElement, noData⟩, call,
    called, rfl, ?_⟩
  -- The flag in front is fine, so the byte string is the first argument that does not fit.
  rcases before with _ | ⟨first, _ | ⟨second, before⟩⟩
  · obtain ⟨⟨⟩, -⟩ := List.cons.inj split
    simp [failed] at flag
  · obtain ⟨-, rest⟩ := List.cons.inj split
    obtain ⟨⟨⟩, -⟩ := List.cons.inj rest
    exact blamed
  · simp [call, arguments] at split

end Interface

end ContractAbi
