import ContractAbi.Log.EventLookup
import ContractAbi.Proofs.Call.Dedicated
import ContractAbi.Proofs.Call.Reordering
import ContractAbi.Proofs.Interface.Catalog

/-!
# Lookups in cataloged interfaces

A catalog moves the declarations of an interface about, but the candidates of a name stay the same
(`Catalog.candidates_perm`) and the events of a name stay in order. So lookups by name end as they
do in the interface with the declarations as they were made, and every kind without names has at
most one element left, which is found.
-/

namespace ContractAbi

namespace Interface

variable {interface : Interface} {kind : ElementKind}

/-- The events that a lookup chooses from are among the events of the name. -/
theorem eventsDeclaring_eq (interface : Interface) (name : String)
    (argumentNames : Option (List String)) :
    interface.eventsDeclaring name argumentNames =
      (((interface.ofKind .event).filter (Element.isCalled name)).filterMap Element.event?).filter
        fun event => event.declaresAll argumentNames := by
  simp only [eventsDeclaring, events, ofKind, List.filter_filterMap, List.filterMap_filter]
  refine List.filterMap_congr fun element _ => ?_
  cases element with
  | event declaration =>
    by_cases called : declaration.name = name <;>
      simp [Element.kind, Element.isCalled, Element.name?, Element.event?, Option.filter, called]
  | _ => rfl

/-- When a kind has at most one element, that element is found. -/
theorem onlyOfKind_of_toList {kept : Option Element} (only : interface.ofKind kind = kept.toList) :
    interface.onlyOfKind kind = kept.elim (.error (.notFound kind)) .ok := by
  rw [onlyOfKind, only]
  cases kept <;> rfl

end Interface

namespace Catalog

variable (declared : List Element)

/-- The candidates of a name are those among the declarations as they were made. -/
theorem candidates_perm (name : String) (arguments : List Argument) (named : NamedArguments) :
    ((ofElements declared).toInterface.candidates name arguments named).Perm
      ((⟨declared⟩ : Interface).candidates name arguments named) := by
  refine List.Perm.filter _ (List.perm_iff_count.2 ?_)
  intro element
  by_cases kept : (element.kind.isNamed && element.name? = some name) = true
  · have all (interface : Interface) :
        (interface.named name).count element = interface.elements.count element :=
      List.count_filter kept
    rw [all, all]
    exact count_toInterface_ofElements declared (Bool.and_elim_left kept)
  · have absent (interface : Interface) : (interface.named name).count element = 0 :=
      List.count_eq_zero.2 fun isMember => kept (List.mem_filter.1 isMember).2
    rw [absent, absent]

/-- Events are looked up as among the declarations as they were made. -/
theorem findEvent_toInterface_ofElements (name : String) (argumentNames : Option (List String)) :
    (ofElements declared).toInterface.findEvent name argumentNames =
      (⟨declared⟩ : Interface).findEvent name argumentNames := by
  have same : (ofElements declared).toInterface.eventsDeclaring name argumentNames =
      (⟨declared⟩ : Interface).eventsDeclaring name argumentNames := by
    rw [Interface.eventsDeclaring_eq, Interface.eventsDeclaring_eq, ofKind_toInterface,
      filter_ofKind_ofElements rfl, Interface.ofKind]
  rw [Interface.findEvent, Interface.findEvent, same]

/-- Of a kind without names the last declaration is found. -/
theorem onlyOfKind_toInterface_ofElements {kind : ElementKind} (unnamed : kind.isNamed = false) :
    (ofElements declared).toInterface.onlyOfKind kind =
      ((⟨declared⟩ : Interface).ofKind kind).getLast?.elim (.error (.notFound kind)) .ok :=
  Interface.onlyOfKind_of_toList <|
    (ofKind_toInterface _ kind).trans (ofKind_ofElements_of_unnamed unnamed declared)

/-- A catalog of declarations resolves ordinary names as the declarations do. It has every function,
event and error as often as it is declared, those of one kind and name in order, and the last
constructor, fallback and receive function. So a lookup of an ordinary name finds the same element,
or fails with an error of the codec in both, or with the same reason; events are found alike under
every name; and a dedicated identifier finds the last element of its kind, if any is declared. -/
theorem findElement_ofElements (declared : List Element) :
    let cataloged := (ofElements declared).toInterface
    let direct : Interface := ⟨declared⟩
    (∀ element, element.kind.isNamed = true →
      cataloged.elements.count element = declared.count element) ∧
    (∀ kind name, kind.isNamed = true →
      (cataloged.ofKind kind).filter (Element.isCalled name) =
        (direct.ofKind kind).filter (Element.isCalled name)) ∧
    (∀ kind, kind.isNamed = false →
      cataloged.ofKind kind = (direct.ofKind kind).getLast?.toList) ∧
    (∀ codec name arguments named, Identifier.IsOrdinary name →
      EndAlike (cataloged.findElement codec (.name name) arguments named).result
        (direct.findElement codec (.name name) arguments named).result) ∧
    (∀ name argumentNames,
      cataloged.findEvent name argumentNames = direct.findEvent name argumentNames) ∧
    ∀ codec identifier kind arguments named, identifier.Dedicated kind →
      let found := (cataloged.findElement codec identifier arguments named).result
      (∀ element, found = .ok element ↔ (direct.ofKind kind).getLast? = some element) ∧
      ((∃ element, found = .ok element) ↔ ∃ element ∈ declared, element.kind = kind) := by
  intro cataloged direct
  refine ⟨fun _ => count_toInterface_ofElements declared, ?_, ?_, ?_,
    findEvent_toInterface_ofElements declared, ?_⟩
  · intro kind name isNamed
    exact (congrArg _ (ofKind_toInterface _ kind)).trans
      (filter_ofKind_ofElements isNamed declared name)
  · intro kind unnamed
    exact (ofKind_toInterface _ kind).trans (ofKind_ofElements_of_unnamed unnamed declared)
  · intro codec name arguments named ordinary
    rw [Interface.findElement_eq_findByName ordinary, Interface.findElement_eq_findByName ordinary]
    exact Interface.endAlike_findByName (candidates_perm declared name arguments named)
  · intro codec identifier kind arguments named dedicated found
    have isFound : found = (direct.ofKind kind).getLast?.elim (.error (.notFound kind)) .ok :=
      (Interface.findElement_of_dedicated dedicated).trans
        (onlyOfKind_toInterface_ofElements declared dedicated.isNamed_eq_false)
    have last (element : Element) :
        found = .ok element ↔ (direct.ofKind kind).getLast? = some element := by
      rw [isFound]
      cases (direct.ofKind kind).getLast? <;> simp
    refine ⟨last, ?_⟩
    simp only [last]
    constructor
    · rintro ⟨element, isLast⟩
      obtain ⟨isDeclared, isKind⟩ := List.mem_filter.1 (List.mem_of_getLast? isLast)
      exact ⟨element, isDeclared, of_decide_eq_true isKind⟩
    · rintro ⟨element, isDeclared, isKind⟩
      have some : element ∈ direct.ofKind kind :=
        List.mem_filter.2 ⟨isDeclared, decide_eq_true isKind⟩
      exact ⟨_, List.getLast?_eq_some_getLast (List.ne_nil_of_mem some)⟩

/-- An event in front of a function of its name comes behind it, a function that is declared twice
stays twice, and of two constructors and two fallback functions only the last one stays. -/
theorem findElement_ofElements_of_overloads :
    let event : Element := .event ⟨"f", [⟨⟨"a", "bool", [], none⟩, true⟩], false⟩
    let function : Element :=
      .function ⟨"f", [⟨"a", "bytes", [], none⟩], [⟨"", "bool", [], none⟩], .view⟩
    let constructor : Element := .constructor ⟨[⟨"a", "bool", [], none⟩], .nonPayable⟩
    let payable : Element := .constructor ⟨[⟨"a", "bool", [], none⟩], .payable⟩
    let direct : Interface := ⟨[.fallback .nonPayable, event, payable, function, constructor,
      .error ⟨"f", []⟩, function, .fallback .payable]⟩
    let cataloged := (ofElements direct.elements).toInterface
    let found (interface : Interface) (name : String) (arguments : List Argument) :=
      (interface.findElement (.standard true 4096) (.name name) arguments .empty).result
    cataloged.elements =
        [constructor, .fallback .payable, function, function, event, .error ⟨"f", []⟩] ∧
      Identifier.IsOrdinary "f" ∧
      found direct "f" [.bool true] = .ok event ∧ found cataloged "f" [.bool true] = .ok event ∧
      found direct "constructor" [] = .error (.notFound .constructor) ∧
      found cataloged "constructor" [] = .ok constructor ∧
      found cataloged "fallback" [] = .ok (.fallback .payable) := by
  intro event function constructor payable direct cataloged found
  have ordinary : Identifier.IsOrdinary "f" := by decide
  have directly : found direct "f" [.bool true] = .ok event := by cbv
  obtain ⟨-, -, -, alike, -, dedicated⟩ := findElement_ofElements direct.elements
  have sameElement := (alike (.standard true 4096) "f" [.bool true] .empty ordinary).ok_iff event
  obtain ⟨last, -⟩ := dedicated (.standard true 4096) (.name "constructor") .constructor [] .empty
    .constructorWord
  obtain ⟨lastFallback, -⟩ := dedicated (.standard true 4096) (.name "fallback") .fallback [] .empty
    .fallbackWord
  exact ⟨by decide, ordinary, directly, sameElement.2 directly, rfl, (last constructor).2 rfl,
    (lastFallback (.fallback .payable)).2 rfl⟩

end Catalog

end ContractAbi
