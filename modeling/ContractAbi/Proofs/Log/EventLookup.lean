import ContractAbi.Log.EventLookup
import ContractAbi.Proofs.Call.Lookup

/-!
# Narrowing lookups of events

The names that are given to a lookup of an event count as a set: the event must declare an input of
each. So a lookup ends by how many events fit (`Interface.findEvent_narrows`), and every further
name leaves a sublist of them (`Interface.eventsDeclaring_sublist`).
-/

namespace ContractAbi

/-- The event has the name and declares all of the given inputs. -/
def Event.Fits (event : Event) (name : String) (given : Option (List String)) : Prop :=
  event.name = name ∧ ∀ argument ∈ given.getD [], argument ∈ event.params.map Param.name

instance (event : Event) (name : String) (given : Option (List String)) :
    Decidable (event.Fits name given) :=
  inferInstanceAs (Decidable (_ ∧ _))

theorem Event.declaresAll_iff {event : Event} {given : Option (List String)} :
    event.declaresAll given = true ↔
      ∀ argument ∈ given.getD [], argument ∈ event.params.map Param.name := by
  cases given <;> simp [declaresAll, declares, params]

/-- Fewer names are easier to declare. -/
theorem Event.Fits.of_subset {event : Event} {name : String} {given wider : Option (List String)}
    (subset : given.getD [] ⊆ wider.getD []) (fits : event.Fits name wider) :
    event.Fits name given :=
  ⟨fits.1, fun argument member => fits.2 argument (subset member)⟩

namespace Interface

/-- The events of a name in order. -/
def eventsNamed (interface : Interface) (name : String) : List Event :=
  interface.events.filter fun event => event.name = name

variable {interface first second : Interface} {name : String}
  {given others wider : Option (List String)} {event : Event}

/-! ## The events to choose from -/

theorem eventsDeclaring_eq_filter (interface : Interface) (name : String)
    (given : Option (List String)) :
    interface.eventsDeclaring name given =
      interface.events.filter fun event => event.Fits name given := by
  refine List.filter_congr fun event _ => ?_
  rw [Bool.eq_iff_iff]
  simp [Event.Fits, Event.declaresAll_iff]

/-- Events of other names play no part. -/
theorem eventsDeclaring_eq_filter_eventsNamed (interface : Interface) (name : String)
    (given : Option (List String)) :
    interface.eventsDeclaring name given =
      (interface.eventsNamed name).filter fun event => event.Fits name given := by
  rw [eventsDeclaring_eq_filter, eventsNamed, List.filter_filter]
  refine List.filter_congr fun event _ => ?_
  rw [Bool.eq_iff_iff]
  simp +contextual [Event.Fits]

/-- Further names leave some of the events. -/
theorem eventsDeclaring_sublist (subset : given.getD [] ⊆ wider.getD []) :
    (interface.eventsDeclaring name wider).Sublist (interface.eventsDeclaring name given) := by
  rw [eventsDeclaring_eq_filter, eventsDeclaring_eq_filter]
  apply List.monotone_filter_right
  intro event fits
  exact decide_eq_true ((of_decide_eq_true fits).of_subset subset)

/-- The same events of the name and the same set of names leave the same events to choose from. -/
theorem eventsDeclaring_perm (same : (first.eventsNamed name).Perm (second.eventsNamed name))
    (sameNames : ∀ argument, argument ∈ given.getD [] ↔ argument ∈ others.getD []) :
    (first.eventsDeclaring name given).Perm (second.eventsDeclaring name others) := by
  have sameFit (event : Event) : event.Fits name given ↔ event.Fits name others :=
    ⟨Event.Fits.of_subset fun _ member => (sameNames _).2 member,
      Event.Fits.of_subset fun _ member => (sameNames _).1 member⟩
  rw [eventsDeclaring_eq_filter_eventsNamed, eventsDeclaring_eq_filter_eventsNamed]
  simp only [sameFit]
  exact same.filter _

/-! ## The choice -/

theorem findEvent_eq_ok_iff (named : name ≠ "") :
    interface.findEvent name given = .ok event ↔
      interface.eventsDeclaring name given = [event] := by
  rw [findEvent, if_neg named]
  split <;> simp_all

theorem findEvent_eq_notFound_iff (named : name ≠ "") :
    interface.findEvent name given = .error .notFound ↔
      interface.eventsDeclaring name given = [] := by
  rw [findEvent, if_neg named]
  split <;> simp_all

theorem findEvent_eq_multiple_iff (named : name ≠ "") :
    interface.findEvent name given = .error (.multiple name) ↔
      2 ≤ (interface.eventsDeclaring name given).length := by
  rw [findEvent, if_neg named]
  match interface.eventsDeclaring name given with
  | [] | [_] | _ :: _ :: _ => simp

/-- The order of the events does not matter for the choice among them. -/
theorem findEvent_eq_of_perm
    (same : (first.eventsDeclaring name given).Perm (second.eventsDeclaring name others)) :
    first.findEvent name given = second.findEvent name others := by
  by_cases named : name = ""
  · rw [findEvent, findEvent, if_pos named, if_pos named]
  · match left : first.eventsDeclaring name given with
    | [] =>
      rw [left, List.nil_perm] at same
      rw [(findEvent_eq_notFound_iff named).2 left, (findEvent_eq_notFound_iff named).2 same]
    | [event] =>
      rw [left, List.singleton_perm] at same
      rw [(findEvent_eq_ok_iff named).2 left, (findEvent_eq_ok_iff named).2 same.symm]
    | _ :: _ :: _ =>
      have several : 2 ≤ (first.eventsDeclaring name given).length := by simp [left]
      rw [(findEvent_eq_multiple_iff named).2 several,
        (findEvent_eq_multiple_iff named).2 (same.length_eq ▸ several)]

/-- Names given to a lookup of an event narrow it down as a set. A lookup depends on nothing but the
events of the name, in any order, and on which names are given, however often; giving none and
giving no list are the same. It finds the event at the only position that fits, fails with several
when two or more fit, and finds nothing when none does. With further names a found event is found
again or nothing is, what is not found stays so, and what was ambiguous with them was so before.
Nothing is ever looked up without a name. -/
theorem findEvent_narrows {name : String} (named : name ≠ "") :
    (∀ (first second : Interface) (given others : Option (List String)),
      (first.eventsNamed name).Perm (second.eventsNamed name) →
      (∀ argument, argument ∈ given.getD [] ↔ argument ∈ others.getD []) →
      first.findEvent name given = second.findEvent name others) ∧
    (∀ (interface : Interface) (given : Option (List String)),
      (∀ event, interface.findEvent name given = .ok event ↔
        ∃ before after, interface.events = before ++ event :: after ∧ event.Fits name given ∧
          ∀ other ∈ before ++ after, ¬other.Fits name given) ∧
      (interface.findEvent name given = .error (.multiple name) ↔
        2 ≤ interface.events.countP fun event => event.Fits name given) ∧
      (interface.findEvent name given = .error .notFound ↔
        ∀ event ∈ interface.events, ¬event.Fits name given)) ∧
    (∀ (interface : Interface) (given wider : Option (List String)),
      given.getD [] ⊆ wider.getD [] →
      (∀ event, interface.findEvent name given = .ok event →
        interface.findEvent name wider = .ok event ∨
          interface.findEvent name wider = .error .notFound) ∧
      (interface.findEvent name given = .error .notFound →
        interface.findEvent name wider = .error .notFound) ∧
      (interface.findEvent name wider = .error (.multiple name) →
        interface.findEvent name given = .error (.multiple name))) ∧
    ∀ (interface : Interface) (given : Option (List String)),
      interface.findEvent "" given = .error .missingName := by
  refine ⟨?_, ?_, ?_, fun _ _ => rfl⟩
  · intro first second given others same sameNames
    exact findEvent_eq_of_perm (eventsDeclaring_perm same sameNames)
  · intro interface given
    refine ⟨?_, ?_, ?_⟩
    · intro event
      rw [findEvent_eq_ok_iff named, eventsDeclaring_eq_filter, filter_eq_singleton_iff]
      simp only [decide_eq_true_eq, decide_eq_false_iff_not]
    · rw [findEvent_eq_multiple_iff named, eventsDeclaring_eq_filter, List.countP_eq_length_filter]
    · rw [findEvent_eq_notFound_iff named, eventsDeclaring_eq_filter, List.filter_eq_nil_iff]
      simp only [decide_eq_true_eq]
  · intro interface given wider subset
    have narrowed : (interface.eventsDeclaring name wider).Sublist
        (interface.eventsDeclaring name given) := eventsDeclaring_sublist subset
    simp only [findEvent_eq_ok_iff named, findEvent_eq_notFound_iff named,
      findEvent_eq_multiple_iff named]
    refine ⟨?_, ?_, ?_⟩
    · intro event only
      rw [only] at narrowed
      exact (List.sublist_singleton.1 narrowed).symm
    · intro nothing
      rw [nothing] at narrowed
      exact List.sublist_nil.1 narrowed
    · intro several
      exact several.trans narrowed.length_le

/-- Two transfers are told apart by an input that only one of them has, whatever else is given and
however often, and in whatever company they are declared. -/
theorem findEvent_narrows_of_transfers :
    let parties : List EventParam :=
      [⟨⟨"from", "address", [], none⟩, true⟩, ⟨⟨"to", "address", [], none⟩, true⟩]
    let fungible : Event :=
      ⟨"Transfer", parties ++ [⟨⟨"value", "uint256", [], none⟩, false⟩], false⟩
    let single : Event := ⟨"Transfer", parties ++ [⟨⟨"id", "uint256", [], none⟩, true⟩], false⟩
    let interface : Interface := ⟨[.event fungible, .event single]⟩
    let inputs := parties.map EventParam.toParam
    let function : Element := .function ⟨"Transfer", inputs, [], .nonPayable⟩
    let mixed : Interface := ⟨[.event single, function, .event fungible]⟩
    "Transfer" ≠ "" ∧
    interface.findEvent "Transfer" none = .error (.multiple "Transfer") ∧
    mixed.findEvent "Transfer" (some []) = .error (.multiple "Transfer") ∧
    interface.findEvent "Transfer" (some ["to", "id"]) = .ok single ∧
    mixed.findEvent "Transfer" (some ["id", "to", "id"]) = .ok single ∧
    mixed.findEvent "Transfer" (some ["to", "id", "value"]) = .error .notFound := by
  intro parties fungible single interface inputs function mixed
  have named : "Transfer" ≠ "" := by decide
  obtain ⟨alike, outcome, narrows, -⟩ := findEvent_narrows named
  have sameEvents : (interface.eventsNamed "Transfer").Perm (mixed.eventsNamed "Transfer") :=
    List.Perm.swap single fungible []
  obtain ⟨-, several, -⟩ := outcome interface none
  have both := several.2 (by decide)
  obtain ⟨found, -, -⟩ := outcome interface (some ["to", "id"])
  have one := (found single).2 ⟨[fungible], [], rfl, by decide, by decide⟩
  have again := alike interface mixed (some ["to", "id"]) (some ["id", "to", "id"]) sameEvents
    (by simp [or_comm])
  have noNames := alike interface mixed none (some []) sameEvents fun _ => Iff.rfl
  obtain ⟨kept, -, -⟩ := narrows mixed (some ["id", "to", "id"]) (some ["to", "id", "value"])
    (by decide)
  have nothing := (kept single (again ▸ one)).resolve_left (by decide)
  exact ⟨named, both, noNames ▸ both, one, again ▸ one, nothing⟩

end Interface

end ContractAbi
