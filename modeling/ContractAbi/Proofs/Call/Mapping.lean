import ContractAbi.Proofs.Call.Form

/-!
# Mappings for tuples

A mapping stands for a tuple when the names of the components are distinct and are its keys
(`Param.holds_ofEntries`). Otherwise the first component without an entry of its own is missing, or
else the first entry without a component is unknown (`Alignment.takeComponents_eq_error_iff`),
whatever values the mapping holds.
-/

namespace ContractAbi

namespace Param

variable {components : List Param} {entries : List (String × Argument)} {name key : String}

/-- The first component without an entry of its own: there is none under its name, or a component in
front of it has the same name. -/
def FirstGap (components : List Param) (entries : List (String × Argument)) (name : String) :
    Prop :=
  ∃ before component after, components = before ++ component :: after ∧ component.name = name ∧
    (before.map Param.name).Nodup ∧ (∀ other ∈ before, other.name ∈ entries.map Prod.fst) ∧
    (name ∉ entries.map Prod.fst ∨ name ∈ before.map Param.name)

/-- The first key that is the name of no component. -/
def FirstExtra (components : List Param) (entries : List (String × Argument)) (key : String) :
    Prop :=
  ∃ before value after, entries = before ++ (key, value) :: after ∧
    (∀ entry ∈ before, entry.1 ∈ components.map Param.name) ∧ key ∉ components.map Param.name

/-- The names of the components are distinct and have entries. -/
def Covered (components : List Param) (entries : List (String × Argument)) : Prop :=
  (components.map Param.name).Nodup ∧
    ∀ component ∈ components, component.name ∈ entries.map Prod.fst

theorem mem_keys_filter {other : String} :
    other ∈ (entries.filter fun entry => entry.1 ≠ key).map Prod.fst ↔
      other ≠ key ∧ other ∈ entries.map Prod.fst := by
  simp only [List.mem_map, List.mem_filter, decide_eq_true_eq]
  grind

/-- Behind a component with an entry, the first gap is the first one without that entry. -/
theorem firstGap_cons_iff {component : Param} :
    FirstGap (component :: components) entries name ↔
      component.name ∉ entries.map Prod.fst ∧ component.name = name ∨
      component.name ∈ entries.map Prod.fst ∧
        FirstGap components (entries.filter fun entry => entry.1 ≠ component.name) name := by
  constructor
  · rintro ⟨before, gap, after, split, named, distinct, found, missing⟩
    cases before with
    | nil =>
      obtain ⟨rfl, rfl⟩ := List.cons.inj split
      subst named
      exact .inl ⟨by simpa using missing, rfl⟩
    | cons first before =>
      obtain ⟨rfl, rfl⟩ := List.cons.inj split
      obtain ⟨firstFound, othersFound⟩ := List.forall_mem_cons.1 found
      rw [List.map_cons, List.nodup_cons] at distinct
      refine .inr ⟨firstFound, before, gap, after, rfl, named, distinct.2, ?_, ?_⟩
      · intro other member
        refine mem_keys_filter.2 ⟨?_, othersFound other member⟩
        intro same
        exact distinct.1 (same ▸ List.mem_map_of_mem member)
      · rw [mem_keys_filter]
        rw [List.map_cons, List.mem_cons] at missing
        tauto
  · rintro (⟨missing, rfl⟩ | ⟨firstFound, before, gap, after, rfl, named, distinct, found, missing⟩)
    · exact ⟨[], component, components, rfl, rfl, by simp, by simp, .inl missing⟩
    · refine ⟨component :: before, gap, after, rfl, named, ?_, ?_, ?_⟩
      · rw [List.map_cons, List.nodup_cons]
        refine ⟨?_, distinct⟩
        intro member
        obtain ⟨other, isBefore, same⟩ := List.mem_map.1 member
        exact (mem_keys_filter.1 (found other isBefore)).1 same
      · refine List.forall_mem_cons.2 ⟨firstFound, ?_⟩
        intro other member
        exact (mem_keys_filter.1 (found other member)).2
      · rw [mem_keys_filter] at missing
        rw [List.map_cons, List.mem_cons]
        tauto

/-- Behind a component with an entry, the others must be covered without that entry. -/
theorem covered_cons_iff {component : Param} :
    Covered (component :: components) entries ↔
      component.name ∈ entries.map Prod.fst ∧
        Covered components (entries.filter fun entry => entry.1 ≠ component.name) := by
  have apart : component.name ∉ components.map Param.name ↔
      ∀ other ∈ components, other.name ≠ component.name := by
    simp
  simp only [Covered, List.map_cons, List.nodup_cons, List.forall_mem_cons, mem_keys_filter, apart,
    forall₂_and]
  tauto

theorem firstExtra_iff_find? :
    FirstExtra components entries key ↔
      ∃ value, (entries.find? fun entry => entry.1 ∉ components.map Param.name) =
        some (key, value) := by
  simp only [List.find?_eq_some_iff_append, FirstExtra]
  grind

/-- An entry for a component in front is no extra one. -/
theorem firstExtra_cons_iff {component : Param} :
    FirstExtra (component :: components) entries key ↔
      FirstExtra components (entries.filter fun entry => entry.1 ≠ component.name) key := by
  have same : (entries.find? fun entry => entry.1 ∉ (component :: components).map Param.name) =
      (entries.filter fun entry => entry.1 ≠ component.name).find? fun entry =>
        entry.1 ∉ components.map Param.name := by
    rw [List.find?_filter]
    congr 1
    funext entry
    simp
  rw [firstExtra_iff_find?, firstExtra_iff_find?, same]

theorem FirstGap.not_covered (gap : FirstGap components entries name) :
    ¬Covered components entries := by
  obtain ⟨before, component, after, rfl, rfl, -, -, missing⟩ := gap
  rintro ⟨distinct, found⟩
  rcases missing with absent | repeated
  · exact absent (found component (by simp))
  · rw [List.map_append, List.map_cons, List.nodup_append] at distinct
    exact distinct.2.2 _ repeated _ List.mem_cons_self rfl

theorem mem_keys_of_named {components : List Param} {values : List Argument}
    {entries : List (String × Argument)}
    (named : List.Forall₂ (fun component value => entries.lookup component.name = some value)
      components values) : ∀ component ∈ components, component.name ∈ entries.map Prod.fst := by
  have found := named.imp fun _ _ valueFound =>
    And.intro (Keyed.mem_keys_of_lookup valueFound) valueFound
  exact ((List.forall₂_and_left _ _).1 found).1

/-- A mapping that is a form of a tuple has the names of the components as its keys. -/
theorem TupleForm.keys {components : List Param} {aligned : Argument}
    {entries : List (String × Argument)} (isForm : TupleForm components aligned (.map entries)) :
    (components.map Param.name).Nodup ∧
      ∀ key, key ∈ entries.map Prod.fst ↔ key ∈ components.map Param.name := by
  obtain ⟨items, values, -, holds, -⟩ := isForm
  obtain - | ⟨distinct, named, noOther⟩ := holds
  refine ⟨distinct, fun key => ⟨?_, ?_⟩⟩
  · intro member
    obtain ⟨entry, isEntry, rfl⟩ := List.mem_map.1 member
    exact noOther entry isEntry
  · intro member
    obtain ⟨component, isComponent, rfl⟩ := List.mem_map.1 member
    exact mem_keys_of_named named component isComponent

end Param

namespace Alignment

open Param (FirstGap FirstExtra Covered)

/-- A mapping that is no tuple is refused for its first gap, or else for its first extra key. -/
theorem takeComponents_eq_error_iff {type : String} {components : List Param}
    {entries : List (String × Argument)} {error : EncodingError} :
    takeComponents type components entries = .error error ↔
      (∃ name, error = .missingComponent type name ∧ FirstGap components entries name) ∨
      ∃ key, error = .unknownArgument key ∧ Covered components entries ∧
        FirstExtra components entries key := by
  induction components generalizing entries with
  | nil =>
    cases entries with
    | nil => simp [takeComponents, FirstGap, FirstExtra]
    | cons entry entries =>
      simp [takeComponents, FirstGap, Param.firstExtra_iff_find?, Covered, Prod.ext_iff, eq_comm]
  | cons component components inductionHypothesis =>
    simp only [takeComponents, Param.firstGap_cons_iff, Param.covered_cons_iff,
      Param.firstExtra_cons_iff]
    split
    · next absent =>
      have unnamed := Keyed.lookup_eq_none_iff_not_mem.1 absent
      simp [unnamed, eq_comm]
    · next value found =>
      have named := Keyed.mem_keys_of_lookup found
      rw [Outcome.map_eq_error, inductionHypothesis]
      simp [named]

/-- A mapping that does not cover the components is refused for its first gap. -/
theorem exists_firstGap {components : List Param} {entries : List (String × Argument)}
    (uncovered : ¬Covered components entries) (type : String) :
    ∃ name, FirstGap components entries name ∧
      takeComponents type components entries = .error (.missingComponent type name) := by
  cases outcome : takeComponents type components entries with
  | ok values =>
    obtain ⟨distinct, named, -⟩ := takeComponents_eq_ok_iff.1 outcome
    exact absurd ⟨distinct, Param.mem_keys_of_named named⟩ uncovered
  | error error =>
    rcases takeComponents_eq_error_iff.1 outcome with ⟨name, rfl, gap⟩ | ⟨key, rfl, covered, -⟩
    · exact ⟨name, gap, rfl⟩
    · exact absurd covered uncovered

/-- A mapping that covers the components is refused for its first extra key. -/
theorem exists_firstExtra {components : List Param} {entries : List (String × Argument)}
    (covered : Covered components entries)
    (extra : ∃ entry ∈ entries, entry.1 ∉ components.map Param.name) (type : String) :
    ∃ key, FirstExtra components entries key ∧
      takeComponents type components entries = .error (.unknownArgument key) := by
  cases outcome : takeComponents type components entries with
  | ok values =>
    obtain ⟨entry, member, unnamed⟩ := extra
    obtain ⟨-, -, noOther⟩ := takeComponents_eq_ok_iff.1 outcome
    exact absurd (noOther entry member) unnamed
  | error error =>
    rcases takeComponents_eq_error_iff.1 outcome with ⟨name, rfl, gap⟩ | ⟨key, rfl, -, first⟩
    · exact absurd covered gap.not_covered
    · exact ⟨key, first, rfl⟩

/-- A tuple is refused with the error of a mapping that does not fit its components. -/
theorem alignTuple_map_eq_error {owner : Param} {entries : List (String × Argument)}
    {error : EncodingError}
    (failed : takeComponents owner.canonicalType owner.components entries = .error error) :
    alignTuple owner (.map entries) = .error error := by
  rw [alignTuple, componentValues, failed]
  rfl

end Alignment

namespace Param

theorem Holds.unique {components : List Param} {values others : List Argument} {whole : Argument}
    (holds : Holds components values whole) (alsoHolds : Holds components others whole) :
    values = others := by
  have found : Alignment.componentValues "" components whole = .ok values :=
    Alignment.componentValues_eq_ok_iff.2 holds
  rw [Alignment.componentValues_eq_ok_iff.2 alsoHolds] at found
  exact (Except.ok.inj found).symm

/-- Components with distinct names may be given in the mapping from these names to the values. -/
theorem holds_ofEntries {components : List Param} {values : List Argument}
    (distinct : (components.map Param.name).Nodup) (counted : values.length = components.length) :
    Holds components values
      (Argument.ofEntries ((components.map Param.name).zip values)) := by
  have enough : (components.map Param.name).length ≤ values.length := by
    rw [List.length_map, counted]
  have same := Keyed.ofList_perm (List.map_fst_zip enough ▸ distinct)
  have keysDistinct := Keyed.Ascending.nodup_keys
    (Keyed.ascending_ofList ((components.map Param.name).zip values))
  refine .map distinct (List.forall₂_iff_zip.2 ⟨counted.symm, ?_⟩) ?_
  · intro component value member
    apply Keyed.lookup_of_mem keysDistinct
    rw [same.mem_iff, List.zip_map_left]
    exact List.mem_map_of_mem member
  · intro entry member
    exact (List.of_mem_zip (same.mem_iff.1 member)).1

end Param

end ContractAbi
