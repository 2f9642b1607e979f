import ContractAbi.Interface.Catalog
import ContractAbi.Proofs.Keyed
import Mathlib.Data.List.Induction

/-!
# What a catalog keeps

A catalog puts declarations under their kind and name. Nothing with a name is lost or replaced, and
declarations of one kind and name stay in order (`Catalog.filter_ofKind_ofElements`). Of each kind
without names the last declaration stays (`Catalog.ofKind_ofElements_of_unnamed`).
-/

namespace ContractAbi

/-- Whether the element has the given name. -/
def Element.isCalled (name : String) (element : Element) : Bool := element.name? = some name

namespace Catalog

section Groups

variable {α : Type} {element : α → Element} {groups : Keyed (List α)} {name key : String}
  {member : α}

/-- The groups are in name order, and the members of each have its name. -/
structure Filed (element : α → Element) (groups : Keyed (List α)) : Prop where
  ascending : groups.Ascending
  called : ∀ entry ∈ groups, ∀ member ∈ entry.2, (element member).name? = some entry.1

theorem Filed.nil : Filed element [] := ⟨.nil, by simp⟩

theorem Filed.tail {entry : String × List α} (filed : Filed element (entry :: groups)) :
    Filed element groups :=
  ⟨(List.pairwise_cons.1 filed.ascending).2, (List.forall_mem_cons.1 filed.called).2⟩

theorem members_cons (entry : String × List α) :
    members element (entry :: groups) = entry.2.map element ++ members element groups :=
  rfl

/-- Groups above a name have no member of it. -/
theorem Filed.filter_eq_nil (filed : Filed element groups)
    (above : ∀ entry ∈ groups, key < entry.1) :
    (members element groups).filter (Element.isCalled key) = [] := by
  refine List.filter_eq_nil_iff.2 ?_
  intro found isMember isKept
  obtain ⟨entry, entryMember, inGroup⟩ := List.mem_flatMap.1 isMember
  obtain ⟨member, isIn, rfl⟩ := List.mem_map.1 inGroup
  simp only [Element.isCalled, filed.called entry entryMember member isIn, Option.some.injEq,
    decide_eq_true_eq] at isKept
  exact String.ne_of_lt (above entry entryMember) isKept.symm

/-- Next to groups above its name a member may stand on either side. -/
theorem Filed.filter_comm (filed : Filed element groups)
    (called : (element member).name? = some name) (above : ∀ entry ∈ groups, name < entry.1)
    (key : String) :
    [element member].filter (Element.isCalled key) ++
        (members element groups).filter (Element.isCalled key) =
      (members element groups).filter (Element.isCalled key) ++
        [element member].filter (Element.isCalled key) := by
  by_cases same : key = name
  · rw [filed.filter_eq_nil (same ▸ above), List.append_nil, List.nil_append]
  · have other : Element.isCalled key (element member) = false := by
      simp [Element.isCalled, called, Ne.symm same]
    simp [other]

/-- A new member stands behind those of its name. -/
theorem Filed.filter_append (filed : Filed element groups)
    (called : (element member).name? = some name) (key : String) :
    (members element (append name member groups)).filter (Element.isCalled key) =
      (members element groups).filter (Element.isCalled key) ++
        [element member].filter (Element.isCalled key) := by
  induction groups with
  | nil => rfl
  | cons entry rest inductionHypothesis =>
    obtain ⟨first, group⟩ := entry
    have ⟨above, _⟩ := List.pairwise_cons.1 filed.ascending
    simp only [append, Keyed.update]
    split
    · next below =>
      rw [members_cons, List.filter_append]
      refine filed.filter_comm called (List.forall_mem_cons.2 ⟨below, ?_⟩) key
      intro entry isMember
      exact String.lt_trans below (above entry isMember)
    split
    · next same =>
      subst same
      simp only [members_cons, Option.getD_some, List.map_append, List.map_cons, List.map_nil,
        List.filter_append, List.append_assoc]
      rw [filed.tail.filter_comm called above]
    · have rest := inductionHypothesis filed.tail
      simp only [members_cons, List.filter_append, List.append_assoc] at rest ⊢
      exact congrArg _ rest

theorem Filed.append (filed : Filed element groups)
    (called : (element member).name? = some name) :
    Filed element (append name member groups) := by
  refine ⟨filed.ascending.update name _, ?_⟩
  intro entry isEntry other isOther
  rcases Keyed.mem_update isEntry with isEntry | rfl | ⟨group, isGroup, rfl⟩
  · exact filed.called entry isEntry other isOther
  · obtain rfl := List.mem_singleton.1 isOther
    exact called
  · rcases List.mem_append.1 isOther with isOther | isOther
    · exact filed.called (name, group) isGroup other isOther
    · obtain rfl := List.mem_singleton.1 isOther
      exact called

end Groups

/-- The declarations of one kind, those with names in name order. -/
def ofKind (catalog : Catalog) : ElementKind → List Element
  | .function => members Element.function catalog.functions
  | .constructor => (catalog.constructor.map Element.constructor).toList
  | .fallback => (catalog.fallback.map Element.fallback).toList
  | .receive => (catalog.receive.map Element.receive).toList
  | .event => members Element.event catalog.events
  | .error => members Element.error catalog.errors

/-- All groups are in name order, and their members have their names. -/
structure Sorted (catalog : Catalog) : Prop where
  functions : Filed Element.function catalog.functions
  events : Filed Element.event catalog.events
  errors : Filed Element.error catalog.errors

variable {catalog : Catalog} {element : Element} {kind : ElementKind} {name : String}

theorem kind_of_mem_ofKind (isMember : element ∈ catalog.ofKind kind) : element.kind = kind := by
  cases kind <;> simp only [ofKind, members, List.mem_flatMap, List.mem_map, Option.mem_toList,
    Option.map_eq_some_iff] at isMember
  case function | event | error =>
    obtain ⟨_, -, _, -, rfl⟩ := isMember
    rfl
  case constructor | fallback | receive =>
    obtain ⟨_, -, rfl⟩ := isMember
    rfl

/-- The declarations of a kind are what the interface of the catalog has of it. -/
theorem ofKind_toInterface (catalog : Catalog) (kind : ElementKind) :
    catalog.toInterface.ofKind kind = catalog.ofKind kind := by
  have filtered (other : ElementKind) :
      (catalog.ofKind other).filter (fun element => element.kind = kind) =
        if other = kind then catalog.ofKind other else [] := by
    split
    · next same =>
      refine List.filter_eq_self.2 fun element isMember => ?_
      simpa using (kind_of_mem_ofKind isMember).trans same
    · next different =>
      refine List.filter_eq_nil_iff.2 fun element isMember => ?_
      simpa [kind_of_mem_ofKind isMember] using different
  have elements : catalog.toInterface.elements =
      catalog.ofKind .constructor ++ catalog.ofKind .fallback ++ catalog.ofKind .receive ++
        catalog.ofKind .function ++ catalog.ofKind .event ++ catalog.ofKind .error := rfl
  rw [Interface.ofKind, elements]
  simp only [List.filter_append, filtered]
  cases kind <;> simp

theorem Sorted.empty : empty.Sorted := ⟨.nil, .nil, .nil⟩

theorem Sorted.add (sorted : catalog.Sorted) (element : Element) :
    (catalog.add element).Sorted := by
  obtain ⟨functions, events, errors⟩ := sorted
  cases element with
  | function => exact ⟨functions.append rfl, events, errors⟩
  | event => exact ⟨functions, events.append rfl, errors⟩
  | error => exact ⟨functions, events, errors.append rfl⟩
  | constructor | fallback | receive => exact ⟨functions, events, errors⟩

/-- One more declaration with a name stands behind those of its kind and name, and the others stay
as they are. -/
theorem Sorted.filter_ofKind_add (sorted : catalog.Sorted) (isNamed : kind.isNamed = true)
    (element : Element) (name : String) :
    ((catalog.add element).ofKind kind).filter (Element.isCalled name) =
      (catalog.ofKind kind).filter (Element.isCalled name) ++
        ([element].filter fun element => element.kind = kind).filter (Element.isCalled name) := by
  cases kind <;> cases isNamed
  case function =>
    cases element with
    | function => exact sorted.functions.filter_append rfl name
    | _ => exact (List.append_nil _).symm
  case event =>
    cases element with
    | event => exact sorted.events.filter_append rfl name
    | _ => exact (List.append_nil _).symm
  case error =>
    cases element with
    | error => exact sorted.errors.filter_append rfl name
    | _ => exact (List.append_nil _).symm

/-- One more declaration without a name takes the place of what there was of its kind. -/
theorem ofKind_add_of_unnamed (unnamed : kind.isNamed = false) (element : Element) :
    (catalog.add element).ofKind kind =
      if element.kind = kind then [element] else catalog.ofKind kind := by
  cases kind <;> cases unnamed <;> cases element <;> rfl

theorem ofElements_concat (elements : List Element) (element : Element) :
    ofElements (elements ++ [element]) = (ofElements elements).add element :=
  List.foldl_append

theorem sorted_ofElements (elements : List Element) : (ofElements elements).Sorted := by
  induction elements using List.reverseRecOn with
  | nil => exact .empty
  | append_singleton elements element inductionHypothesis =>
    rw [ofElements_concat]
    exact inductionHypothesis.add element

/-- The declarations of one kind and name are kept in order. -/
theorem filter_ofKind_ofElements (isNamed : kind.isNamed = true) (elements : List Element)
    (name : String) :
    ((ofElements elements).ofKind kind).filter (Element.isCalled name) =
      (elements.filter fun element => element.kind = kind).filter (Element.isCalled name) := by
  induction elements using List.reverseRecOn with
  | nil => cases kind <;> cases isNamed <;> rfl
  | append_singleton elements element inductionHypothesis =>
    rw [ofElements_concat, (sorted_ofElements elements).filter_ofKind_add isNamed,
      inductionHypothesis, List.filter_append, List.filter_append]

/-- Of a kind without names the last declaration is kept. -/
theorem ofKind_ofElements_of_unnamed (unnamed : kind.isNamed = false) (elements : List Element) :
    (ofElements elements).ofKind kind =
      (elements.filter fun element => element.kind = kind).getLast?.toList := by
  induction elements using List.reverseRecOn with
  | nil => cases kind <;> cases unnamed <;> rfl
  | append_singleton elements element inductionHypothesis =>
    rw [ofElements_concat, ofKind_add_of_unnamed unnamed, inductionHypothesis, List.filter_append]
    by_cases same : element.kind = kind <;> simp [same]

/-- A declaration with a name is kept as often as it is made. -/
theorem count_toInterface_ofElements (elements : List Element)
    (isNamed : element.kind.isNamed = true) :
    (ofElements elements).toInterface.elements.count element = elements.count element := by
  obtain ⟨name, called⟩ := Option.isSome_iff_exists.1
    (element.isSome_name?_eq_isNamed.trans isNamed)
  have counted (others : List Element) :
      ((others.filter fun other => other.kind = element.kind).filter
        (Element.isCalled name)).count element = others.count element := by
    rw [List.count_filter (by simp [Element.isCalled, called]), List.count_filter (by simp)]
  have kept := filter_ofKind_ofElements isNamed elements name
  rw [← ofKind_toInterface, Interface.ofKind] at kept
  rw [← counted, kept, counted]

end Catalog

end ContractAbi
