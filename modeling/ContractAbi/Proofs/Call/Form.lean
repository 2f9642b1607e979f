import ContractAbi.Proofs.Call.Alignment
import ContractAbi.Proofs.Keyed
import Mathlib

/-!
# Forms of aligned arguments

Where a parameter declares a tuple, an argument may give the components in a list or by their names
in a mapping, at every depth; where it declares none, an argument has one form only. An argument is
aligned to exactly the list of which it is a form (`Alignment.align_eq_ok_iff`).
-/

namespace ContractAbi

namespace Argument

/-- Both arguments are lists as deep as the levels say, with the same number of items on each, and
what stands below is related one by one. -/
def Levels (related : Argument → Argument → Prop) : (levels : Nat) → Argument → Argument → Prop
  | 0, left, right => related left right
  | levels + 1, left, right => ∃ lefts rights, left = .list lefts ∧ right = .list rights ∧
      List.Forall₂ (Levels related levels) lefts rights

theorem exists_related_of_mem {related : Argument → Argument → Prop}
    {lefts rights : List Argument} (each : List.Forall₂ related lefts rights) :
    ∀ right ∈ rights, ∃ left, related left right := by
  induction each with
  | nil => simp
  | cons first _ inductionHypothesis =>
    exact List.forall_mem_cons.2 ⟨⟨_, first⟩, inductionHypothesis⟩

end Argument

namespace Param

/-- The type text is the word `tuple` with this many array sizes. -/
def TupleText (param : Param) (levels : Nat) : Prop :=
  ∃ suffix, tupleSuffix? param.type = some suffix ∧ Alignment.SizesText suffix levels

/-- At every depth, a type text that starts with the word `tuple` is this word with array sizes. -/
inductive SizedTuples : Param → Prop where
  | mk {name type : String} {components : List Param} {internalType : Option InternalType}
    (sized : (tupleSuffix? type).isSome = true →
      ∃ levels, TupleText ⟨name, type, components, internalType⟩ levels)
    (below : ∀ component ∈ components, SizedTuples component) :
    SizedTuples ⟨name, type, components, internalType⟩

theorem SizedTuples.of_plain {name type : String} {internalType : Option InternalType}
    (plain : tupleSuffix? type = none) : SizedTuples ⟨name, type, [], internalType⟩ :=
  .mk (by simp [plain]) (by simp)

theorem SizedTuples.component {param component : Param} (sized : param.SizedTuples)
    (member : component ∈ param.components) : component.SizedTuples := by
  cases sized with
  | mk _ below => exact below component member

/-- An argument that gives one value to each component: a list of the values in order, or a mapping
whose keys are the names of the components, which must be distinct. -/
inductive Holds (components : List Param) (values : List Argument) : Argument → Prop where
  | list (counted : values.length = components.length) : Holds components values (.list values)
  | map {entries : List (String × Argument)}
    (distinct : (components.map Param.name).Nodup)
    (named : List.Forall₂ (fun component value => entries.lookup component.name = some value)
      components values)
    (noOther : ∀ entry ∈ entries, entry.1 ∈ components.map Param.name) :
    Holds components values (.map entries)

mutual
/-- The second argument is a form of the first one: below the lists for array sizes, every tuple of
the first one is a list, and the second one gives its components in a list or a mapping. -/
def Form : Param → (aligned form : Argument) → Prop
  | ⟨name, type, components, internalType⟩, aligned, form =>
    tupleSuffix? type = none ∧ aligned = form ∨
    ∃ levels, TupleText ⟨name, type, components, internalType⟩ levels ∧
      Argument.Levels (fun aligned form => ∃ items values, aligned = .list items ∧
        Holds components values form ∧ Forms components items values) levels aligned form

/-- Arguments are forms of others at the parameters, one by one. -/
def Forms : List Param → (aligned forms : List Argument) → Prop
  | param :: params, aligned :: others, form :: forms =>
    param.Form aligned form ∧ Forms params others forms
  | [], [], [] => True
  | _, _, _ => False
end

/-- The second argument gives forms of the components of a tuple, in a list or a mapping. -/
def TupleForm (components : List Param) (aligned form : Argument) : Prop :=
  ∃ items values, aligned = .list items ∧ Holds components values form ∧
    Forms components items values

theorem Holds.length_eq {components : List Param} {values : List Argument} {argument : Argument}
    (holds : Holds components values argument) : values.length = components.length := by
  cases holds with
  | list counted => exact counted
  | map _ named _ => exact named.length_eq.symm

variable {param : Param} {levels : Nat} {aligned form : Argument}

theorem TupleText.levels_eq {suffix : List Char} (text : param.TupleText levels)
    (tuple : tupleSuffix? param.type = some suffix) : Alignment.arrayLevels suffix = levels := by
  obtain ⟨other, otherTuple, spelled⟩ := text
  obtain rfl := Option.some.inj (tuple.symm.trans otherTuple)
  exact spelled.arrayLevels_eq

theorem forms_cons_iff {params : List Param} {items forms : List Argument} :
    Forms (param :: params) items forms ↔ ∃ first others firstForm otherForms,
      items = first :: others ∧ forms = firstForm :: otherForms ∧
        param.Form first firstForm ∧ Forms params others otherForms := by
  cases items <;> cases forms <;> simp [Forms]

theorem form_iff_of_plain (plain : tupleSuffix? param.type = none) :
    param.Form aligned form ↔ aligned = form := by
  cases param
  simp only at plain
  simp [Form, TupleText, plain]

theorem form_iff_of_tupleText (text : param.TupleText levels) :
    param.Form aligned form ↔ Argument.Levels (TupleForm param.components) levels aligned form := by
  obtain ⟨suffix, tuple, -⟩ := id text
  have same {other : Nat} (otherText : param.TupleText other) : other = levels :=
    (otherText.levels_eq tuple).symm.trans (text.levels_eq tuple)
  cases param
  simp only at tuple
  simp only [Form, tuple, reduceCtorEq, false_and, false_or]
  constructor
  · rintro ⟨other, otherText, below⟩
    obtain rfl := same otherText
    exact below
  · intro below
    exact ⟨levels, text, below⟩

end Param

namespace Alignment

open Param (Holds Form Forms TupleForm TupleText SizedTuples)

/-! ## Components by name -/

/-- Values that are found without a key are found with it, and none of them is under the key. -/
theorem forall₂_lookup_filter {entries : List (String × Argument)} {key : String}
    {components : List Param} {values : List Argument} :
    List.Forall₂ (fun component value =>
        (entries.filter fun entry => entry.1 ≠ key).lookup component.name = some value)
      components values ↔
    key ∉ components.map Param.name ∧
      List.Forall₂ (fun component value => entries.lookup component.name = some value)
        components values := by
  induction components generalizing values with
  | nil => simp
  | cons component components inductionHypothesis =>
    cases values with
    | nil => simp
    | cons value values =>
      rw [List.forall₂_cons, List.forall₂_cons, inductionHypothesis,
        Keyed.lookup_filter_ne]
      grind

/-- The components take all of a mapping when their names are distinct and are its keys. -/
theorem takeComponents_eq_ok_iff {type : String} {components : List Param}
    {entries : List (String × Argument)} {values : List Argument} :
    takeComponents type components entries = .ok values ↔
      (components.map Param.name).Nodup ∧
      List.Forall₂ (fun component value => entries.lookup component.name = some value)
        components values ∧
      ∀ entry ∈ entries, entry.1 ∈ components.map Param.name := by
  induction components generalizing entries values with
  | nil =>
    cases entries with
    | nil => simp [takeComponents, eq_comm]
    | cons entry entries =>
      refine iff_of_false (by simp [takeComponents]) ?_
      rintro ⟨-, -, noOther⟩
      simpa using noOther entry List.mem_cons_self
  | cons component components inductionHypothesis =>
    simp only [takeComponents]
    split
    · next absent => cases values <;> simp [absent]
    · next value found =>
      rw [Outcome.map_eq_ok]
      cases values with
      | nil => simp
      | cons first others =>
        have remaining : (∀ entry ∈ entries.filter fun entry => entry.1 ≠ component.name,
            entry.1 ∈ components.map Param.name) ↔
            ∀ entry ∈ entries, entry.1 ∈ (component :: components).map Param.name := by
          simp [or_iff_not_imp_left]
        simp only [List.cons.injEq, exists_eq_right_right, inductionHypothesis,
          forall₂_lookup_filter, remaining, List.forall₂_cons, found, Option.some.injEq]
        rw [List.map_cons, List.nodup_cons]
        tauto

theorem componentValues_eq_ok_iff {type : String} {components : List Param}
    {argument : Argument} {values : List Argument} :
    componentValues type components argument = .ok values ↔ Holds components values argument := by
  cases argument with
  | list items =>
    simp only [componentValues]
    split
    · next counted =>
      constructor
      · rintro ⟨⟩
        exact .list counted
      · rintro ⟨⟩
        rfl
    · next miscounted =>
      refine iff_of_false (by simp) ?_
      rintro ⟨counted⟩
      exact miscounted counted
  | map entries =>
    rw [componentValues, takeComponents_eq_ok_iff]
    constructor
    · rintro ⟨distinct, named, noOther⟩
      exact .map distinct named noOther
    · rintro (_ | ⟨distinct, named, noOther⟩)
      exact ⟨distinct, named, noOther⟩
  | _ => exact iff_of_false (by simp [componentValues]) (by rintro ⟨⟩)

/-! ## Aligned arguments and their forms -/

/-- Array levels are aligned as lists when what stands below them is. -/
theorem alignLevels_eq_ok_iff {type : String} {leaf : Argument → Except EncodingError Argument}
    {related : Argument → Argument → Prop}
    (below : ∀ {aligned form}, leaf form = .ok aligned ↔ related aligned form) {levels : Nat}
    {aligned form : Argument} :
    alignLevels type leaf levels form = .ok aligned ↔
      Argument.Levels related levels aligned form := by
  induction levels generalizing aligned form with
  | zero => exact below
  | succ levels inductionHypothesis =>
    cases form with
    | list forms =>
      simp only [alignLevels, Outcome.map_eq_ok, mapM_eq_ok_iff, inductionHypothesis,
        Argument.Levels, Argument.list.injEq]
      grind
    | _ => simp [alignLevels, Argument.Levels]

/-- Values are aligned to as many components when each of them is. -/
theorem alignEach_eq_ok_iff {components : List Param}
    (each : ∀ component ∈ components, ∀ {aligned form},
      align component form = .ok aligned ↔ component.Form aligned form)
    {items values : List Argument} (counted : values.length = components.length) :
    alignEach components values = .ok items ↔ Forms components items values := by
  induction components generalizing items values with
  | nil =>
    obtain rfl := List.length_eq_zero_iff.1 counted
    cases items <;> simp [alignEach, Forms]
  | cons component components inductionHypothesis =>
    cases values with
    | nil => cases counted
    | cons value values =>
      obtain ⟨first, others⟩ := List.forall_mem_cons.1 each
      simp only [alignEach, Outcome.bind_eq_ok, Outcome.pure_eq, Except.ok.injEq, first,
        inductionHypothesis others (Nat.succ.inj counted)]
      cases items with
      | nil => simp [Forms]
      | cons item items => simp [Forms]

/-- Aligns a tuple of the parameter. -/
def alignTuple (param : Param) (argument : Argument) : Except EncodingError Argument := do
  let values ← componentValues param.canonicalType param.components argument
  return .list (← alignEach param.components values)

/-- An argument is aligned as a tuple below the array levels of the type text. -/
theorem align_eq_alignLevels {param : Param} {levels : Nat} (text : param.TupleText levels)
    (argument : Argument) :
    align param argument = alignLevels param.canonicalType (alignTuple param) levels argument := by
  obtain ⟨suffix, tuple, -⟩ := id text
  have counted := text.levels_eq tuple
  cases param
  simp only at tuple
  simp only [align, tuple, counted]
  rfl

theorem align_of_plain {param : Param} (plain : Param.tupleSuffix? param.type = none)
    (argument : Argument) : align param argument = .ok argument := by
  cases param
  simp only at plain
  simp only [align, plain]

/-- A tuple is aligned to the list of whose components it gives forms. -/
theorem alignTuple_eq_ok_iff {param : Param}
    (each : ∀ component ∈ param.components, ∀ {aligned form},
      align component form = .ok aligned ↔ component.Form aligned form)
    {aligned form : Argument} :
    alignTuple param form = .ok aligned ↔ TupleForm param.components aligned form := by
  simp only [alignTuple, Outcome.bind_eq_ok, Outcome.pure_eq, Except.ok.injEq,
    componentValues_eq_ok_iff]
  constructor
  · rintro ⟨values, holds, items, eachAligned, rfl⟩
    exact ⟨items, values, rfl, holds, (alignEach_eq_ok_iff each holds.length_eq).1 eachAligned⟩
  · rintro ⟨items, values, rfl, holds, eachForm⟩
    exact ⟨values, holds, items, (alignEach_eq_ok_iff each holds.length_eq).2 eachForm, rfl⟩

/-- An argument is aligned to the list of which it is a form, and to nothing else. -/
theorem align_eq_ok_iff {param : Param} (sized : param.SizedTuples)
    {aligned form : Argument} : align param form = .ok aligned ↔ param.Form aligned form := by
  induction param generalizing aligned form with
  | mk name type components internalType inductionHypothesis =>
    obtain ⟨hasLevels, below⟩ := sized
    cases tuple : Param.tupleSuffix? type with
    | none =>
      rw [align_of_plain tuple, Param.form_iff_of_plain tuple, Except.ok.injEq, eq_comm]
    | some suffix =>
      obtain ⟨levels, text⟩ := hasLevels (by simp [tuple])
      rw [align_eq_alignLevels text, Param.form_iff_of_tupleText text]
      apply alignLevels_eq_ok_iff
      intro aligned form
      apply alignTuple_eq_ok_iff
      intro component member aligned form
      exact inductionHypothesis component member (below component member)

/-- Arguments are aligned one by one to those of which they are forms. -/
theorem zipWith_align_eq_iff {inputs : List Param}
    (sized : ∀ input ∈ inputs, input.SizedTuples) {aligned forms : List Argument} :
    inputs.length = forms.length ∧ List.zipWith align inputs forms = aligned.map .ok ↔
      Forms inputs aligned forms := by
  induction inputs generalizing aligned forms with
  | nil => cases forms <;> cases aligned <;> simp [Forms]
  | cons input inputs inductionHypothesis =>
    obtain ⟨first, others⟩ := List.forall_mem_cons.1 sized
    cases forms with
    | nil => simp [Forms]
    | cons form forms =>
      cases aligned with
      | nil => simp [Forms]
      | cons item items =>
        rw [Forms, ← inductionHypothesis others, ← align_eq_ok_iff first]
        simp only [List.length_cons, Nat.add_right_cancel_iff, List.zipWith_cons_cons,
          List.map_cons, List.cons.injEq]
        tauto

end Alignment

/-- An element is aligned to canonical types that stand for types, and to the arguments of which the
given ones are forms. -/
theorem Element.align_eq_ok_iff_forms {element : Element}
    (sized : ∀ input ∈ element.inputs, input.SizedTuples) {arguments aligned : List Argument}
    {types : List String} :
    element.align arguments = .ok (types, aligned) ↔
      types = element.inputTypes ∧
      (∀ input ∈ element.inputs, ∃ type, AbiType.parse input.canonicalType = .ok type) ∧
      Param.Forms element.inputs aligned arguments := by
  rw [align_eq_ok_iff, ← Alignment.zipWith_align_eq_iff sized, inputCount]
  tauto

end ContractAbi
