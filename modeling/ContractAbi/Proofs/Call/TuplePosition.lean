import ContractAbi.Proofs.Call.Mapping
import ContractAbi.Proofs.Call.Mismatch

/-!
# Tuples within arguments

A tuple stands in an argument below lists for the array sizes of its type and below other tuples.
When an argument is aligned, every tuple in it is a form of one, and an argument with a tuple that
is none is refused with the error of the first such tuple that alignment comes to
(`Alignment.alignLevels_eq_error_of_hasTuple`). So tuples may be given in lists and in mappings with
the same result (`Element.align_of_forms`).
-/

namespace ContractAbi

namespace Param

/-- The argument can be aligned to tuples of the parameter below this many array levels. -/
def AlignsAt (param : Param) (levels : Nat) (argument : Argument) : Prop :=
  ∃ aligned, Argument.Levels (TupleForm param.components) levels aligned argument

/-- The last argument stands in the first one where the owner declares a tuple, and everything in
front of it passes: on each list above it the items in front of it, and in each tuple above it the
values of the components in front of it that are tuples themselves. -/
inductive HasTuple (passes : Param → Nat → Argument → Prop) :
    Param → (levels : Nat) → Argument → (owner : Param) → (tuple : Argument) → Prop where
  | here {param : Param} {tuple : Argument} : HasTuple passes param 0 tuple param tuple
  | item {param owner : Param} {levels : Nat} {before after : List Argument}
    {item tuple : Argument} (front : ∀ other ∈ before, passes param levels other)
    (below : HasTuple passes param levels item owner tuple) :
    HasTuple passes param (levels + 1) (.list (before ++ item :: after)) owner tuple
  | component {param component owner : Param} {levels : Nat} {whole value tuple : Argument}
    {values : List Argument} {before after : List (Param × Argument)}
    (holds : Holds param.components values whole)
    (split : param.components.zip values = before ++ (component, value) :: after)
    (front : ∀ entry ∈ before, ∀ levels, entry.1.TupleText levels → passes entry.1 levels entry.2)
    (text : component.TupleText levels)
    (below : HasTuple passes component levels value owner tuple) :
    HasTuple passes param 0 whole owner tuple

/-- Each component has a form among the values. -/
theorem exists_form_of_mem_zip {params : List Param} {items values : List Argument}
    (areForms : Forms params items values) {param : Param} {value : Argument}
    (member : (param, value) ∈ params.zip values) : ∃ item, param.Form item value := by
  induction params generalizing items values with
  | nil => simp at member
  | cons first params inductionHypothesis =>
    obtain ⟨item, _, _, _, rfl, rfl, firstForm, otherForms⟩ := forms_cons_iff.1 areForms
    rw [List.zip_cons_cons, List.mem_cons] at member
    rcases member with same | member
    · obtain ⟨rfl, rfl⟩ := Prod.mk.inj same
      exact ⟨item, firstForm⟩
    · exact inductionHypothesis otherForms member

/-- In a form, every tuple is a form of a tuple. -/
theorem HasTuple.exists_tupleForm {passes : Param → Nat → Argument → Prop} {param owner : Param}
    {levels : Nat} {argument tuple : Argument}
    (stands : HasTuple passes param levels argument owner tuple) {aligned : Argument}
    (isForm : Argument.Levels (TupleForm param.components) levels aligned argument) :
    ∃ item, TupleForm owner.components item tuple := by
  induction stands generalizing aligned with
  | here => exact ⟨aligned, isForm⟩
  | @item _ _ _ before after item _ _ _ inductionHypothesis =>
    obtain ⟨items, others, rfl, same, each⟩ := isForm
    obtain rfl := Argument.list.inj same
    obtain ⟨alignedItem, itemForm⟩ := Argument.exists_related_of_mem each item (by simp)
    exact inductionHypothesis itemForm
  | @component param component _ _ _ value _ values _ _ holds split _ text _ inductionHypothesis =>
    obtain ⟨items, others, rfl, alsoHolds, areForms⟩ := isForm
    obtain rfl := holds.unique alsoHolds
    have member : (component, value) ∈ param.components.zip values := by simp [split]
    obtain ⟨item, valueForm⟩ := exists_form_of_mem_zip areForms member
    exact inductionHypothesis ((form_iff_of_tupleText text).1 valueForm)

end Param

namespace Alignment

open Param (TupleForm)

theorem alignEach_eq_mapM (params : List Param) (arguments : List Argument) :
    alignEach params arguments =
      (params.zip arguments).mapM fun entry => align entry.1 entry.2 := by
  induction params generalizing arguments with
  | nil => rfl
  | cons param params inductionHypothesis =>
    cases arguments with
    | nil => rfl
    | cons argument arguments =>
      rw [List.zip_cons_cons, List.mapM_cons, alignEach, inductionHypothesis]

theorem alignTuple_eq_ok_iff_of_sized {param : Param} (sized : param.SizedTuples)
    {aligned form : Argument} :
    alignTuple param form = .ok aligned ↔ TupleForm param.components aligned form :=
  alignTuple_eq_ok_iff fun _ member => align_eq_ok_iff (sized.component member)

/-- What passes in front of a tuple is aligned. -/
theorem exists_alignLevels_of_alignsAt {param : Param} (sized : param.SizedTuples) {levels : Nat}
    {argument : Argument} (passes : param.AlignsAt levels argument) :
    ∃ aligned,
      alignLevels param.canonicalType (alignTuple param) levels argument = .ok aligned := by
  obtain ⟨aligned, isForm⟩ := passes
  exact ⟨aligned, (alignLevels_eq_ok_iff (alignTuple_eq_ok_iff_of_sized sized)).2 isForm⟩

theorem exists_align_of_alignsAt {param : Param} (sized : param.SizedTuples) {argument : Argument}
    (passes : ∀ levels, param.TupleText levels → param.AlignsAt levels argument) :
    ∃ aligned, align param argument = .ok aligned := by
  cases tuple : Param.tupleSuffix? param.type with
  | none => exact ⟨argument, align_of_plain tuple argument⟩
  | some suffix =>
    obtain ⟨levels, text⟩ : ∃ levels, param.TupleText levels := by
      cases sized with
      | mk sized _ => exact sized (by simp_all)
    rw [align_eq_alignLevels text]
    exact exists_alignLevels_of_alignsAt sized (passes levels text)

/-- Alignment fails with the error of a tuple that it comes to. -/
theorem alignLevels_eq_error_of_hasTuple {param owner : Param} (sized : param.SizedTuples)
    {levels : Nat} {argument tuple : Argument}
    (reached : Param.HasTuple Param.AlignsAt param levels argument owner tuple)
    {error : EncodingError} (failed : alignTuple owner tuple = .error error) :
    alignLevels param.canonicalType (alignTuple param) levels argument = .error error := by
  induction reached with
  | here => exact failed
  | item front below inductionHypothesis =>
    have fine := fun other member => exists_alignLevels_of_alignsAt sized (front other member)
    rw [alignLevels, mapM_eq_error fine (inductionHypothesis sized failed), Outcome.map_error]
  | @component param component owner levels whole value tuple values before after holds split front
      text below inductionHypothesis =>
    have sizedEach : ∀ entry ∈ before ++ (component, value) :: after, entry.1.SizedTuples := by
      rw [← split]
      exact fun entry member => sized.component (List.of_mem_zip member).1
    have fine := fun entry member => exists_align_of_alignsAt
      (sizedEach entry (List.mem_append_left _ member)) (front entry member)
    have componentFailed := inductionHypothesis (sizedEach (component, value) (by simp)) failed
    rw [← align_eq_alignLevels text] at componentFailed
    rw [alignLevels, alignTuple, componentValues_eq_ok_iff.2 holds, Outcome.ok_bind,
      alignEach_eq_mapM, split, mapM_eq_error fine componentFailed, Outcome.error_bind]

end Alignment

namespace Element

/-- The tuple stands in one of the arguments where a tuple is declared below its input. -/
def Contains (element : Element) (arguments : List Argument) (owner : Param) (tuple : Argument) :
    Prop :=
  ∃ input argument levels, (input, argument) ∈ element.inputs.zip arguments ∧
    input.TupleText levels ∧
    Param.HasTuple (fun _ _ _ => True) input levels argument owner tuple

/-- Alignment of the arguments gets to the tuple: the types of the inputs up to its own stand for
types, and everything in front of it can be aligned. -/
def GetsTo (element : Element) (arguments : List Argument) (owner : Param) (tuple : Argument) :
    Prop :=
  element.inputCount = arguments.length ∧ ∃ before input argument after levels,
    element.inputs.zip arguments = before ++ (input, argument) :: after ∧
    (∀ entry ∈ before ++ [(input, argument)],
      ∃ type, AbiType.parse entry.1.canonicalType = .ok type) ∧
    (∀ entry ∈ before, ∀ levels, entry.1.TupleText levels → entry.1.AlignsAt levels entry.2) ∧
    input.TupleText levels ∧ Param.HasTuple Param.AlignsAt input levels argument owner tuple

variable {element : Element} {arguments : List Argument} {owner : Param} {tuple : Argument}

/-- Every tuple in aligned arguments is a form of a tuple. -/
theorem Contains.exists_tupleForm (contains : element.Contains arguments owner tuple)
    {aligned : List Argument} (areForms : Param.Forms element.inputs aligned arguments) :
    ∃ item, Param.TupleForm owner.components item tuple := by
  obtain ⟨input, argument, levels, member, text, stands⟩ := contains
  obtain ⟨item, isForm⟩ := Param.exists_form_of_mem_zip areForms member
  exact stands.exists_tupleForm ((Param.form_iff_of_tupleText text).1 isForm)

/-- Alignment fails with the error of the tuple that it gets to. -/
theorem GetsTo.align_eq_error (getsTo : element.GetsTo arguments owner tuple)
    (sized : ∀ input ∈ element.inputs, input.SizedTuples) {error : EncodingError}
    (failed : Alignment.alignTuple owner tuple = .error error) :
    element.align arguments = .error error := by
  obtain ⟨counted, before, input, argument, after, levels, split, parsable, front, text, reached⟩ :=
    getsTo
  have sizedEach : ∀ entry ∈ before ++ (input, argument) :: after, entry.1.SizedTuples := by
    rw [← split]
    exact fun entry member => sized entry.1 (List.of_mem_zip member).1
  have inputFailed : Alignment.align input argument = .error error := by
    rw [Alignment.align_eq_alignLevels text]
    exact Alignment.alignLevels_eq_error_of_hasTuple
      (sizedEach (input, argument) (by simp)) reached failed
  rw [Element.align, if_neg (not_not.2 counted), Alignment.alignInputs_eq_error_iff, split,
    List.findSome?_append]
  have fine : before.findSome? (fun entry => Alignment.fault? entry.1 entry.2) = none := by
    rw [List.findSome?_eq_none_iff]
    intro entry member
    obtain ⟨type, parsed⟩ := parsable entry (by simp [member])
    obtain ⟨aligned, aligns⟩ := Alignment.exists_align_of_alignsAt
      (sizedEach entry (List.mem_append_left _ member)) (front entry member)
    simp only [Alignment.fault?, parsed, aligns]
  obtain ⟨type, parsed⟩ := parsable (input, argument) (by simp)
  have faulty : Alignment.fault? input argument = some error := by
    simp only [Alignment.fault?, parsed, inputFailed]
  rw [fine, Option.none_or, List.findSome?_cons, faulty]

/-- Tuples may be given in lists or in mappings. Forms of aligned arguments are aligned to them as
well, in which any of the tuples are mappings from the distinct names of their components to the
values of these. No other mapping stands for a tuple. When alignment gets to a mapping, it fails
for the first component without an entry of its own, or else for the first extra key, whatever the
values are. -/
theorem align_of_forms (sized : ∀ input ∈ element.inputs, input.SizedTuples)
    (arguments : List Argument) :
    (∀ types aligned, element.align arguments = .ok (types, aligned) →
      (∀ forms, Param.Forms element.inputs aligned forms →
        element.align forms = .ok (types, aligned)) ∧
      ∀ owner entries, element.Contains arguments owner (.map entries) →
        (owner.components.map Param.name).Nodup ∧
          ∀ key, key ∈ entries.map Prod.fst ↔ key ∈ owner.components.map Param.name) ∧
    ∀ owner entries, element.GetsTo arguments owner (.map entries) →
      (¬Param.Covered owner.components entries →
        ∃ name, Param.FirstGap owner.components entries name ∧
          element.align arguments = .error (.missingComponent owner.canonicalType name)) ∧
      (Param.Covered owner.components entries →
        (∃ entry ∈ entries, entry.1 ∉ owner.components.map Param.name) →
        ∃ key, Param.FirstExtra owner.components entries key ∧
          element.align arguments = .error (.unknownArgument key)) := by
  refine ⟨?_, ?_⟩
  · intro types aligned aligns
    obtain ⟨typed, parsable, areForms⟩ := (align_eq_ok_iff_forms sized).1 aligns
    refine ⟨?_, ?_⟩
    · intro forms otherForms
      exact (align_eq_ok_iff_forms sized).2 ⟨typed, parsable, otherForms⟩
    · intro owner entries contains
      obtain ⟨item, isForm⟩ := contains.exists_tupleForm areForms
      exact isForm.keys
  · intro owner entries getsTo
    refine ⟨?_, ?_⟩
    · intro uncovered
      obtain ⟨name, gap, failed⟩ :=
        Alignment.exists_firstGap uncovered owner.canonicalType
      exact ⟨name, gap, getsTo.align_eq_error sized (Alignment.alignTuple_map_eq_error failed)⟩
    · intro covered extra
      obtain ⟨key, first, failed⟩ :=
        Alignment.exists_firstExtra covered extra owner.canonicalType
      exact ⟨key, first, getsTo.align_eq_error sized (Alignment.alignTuple_map_eq_error failed)⟩

/-- A tuple in a list and its last component are given by names, and a mapping without one of the
names is refused. -/
theorem align_of_forms_of_nested_tuples :
    let leg : Param :=
      ⟨"leg", "tuple", [⟨"to", "bool", [], none⟩, ⟨"memo", "string", [], none⟩], none⟩
    let orders : Param := ⟨"orders", "tuple[]", [⟨"open", "bool", [], none⟩, leg], none⟩
    let element : Element := .function ⟨"submit", [orders], [], .nonPayable⟩
    let legByName := Argument.ofEntries [("to", .bool false), ("memo", .text "x")]
    let order : Argument := .list [.bool true, .list [.bool false, .text "x"]]
    let orderByName := Argument.ofEntries [("open", .bool true), ("leg", legByName)]
    let gap : Argument := .map [("note", .bytes []), ("to", .bool true)]
    (∀ input ∈ element.inputs, input.SizedTuples) ∧
      element.align [.list [order]] = .ok (["(bool,(bool,string))[]"], [.list [order]]) ∧
      element.align [.list [orderByName]] = .ok (["(bool,(bool,string))[]"], [.list [order]]) ∧
      ∃ name, element.align [.list [orderByName, .list [.bool true, gap]]] =
        .error (.missingComponent "(bool,string)" name) := by
  intro leg orders element legByName order orderByName gap
  have legText : leg.TupleText 0 := ⟨[], by decide, .stop⟩
  have ordersText : orders.TupleText 1 :=
    ⟨['[', ']'], by decide, .size (List.forall_mem_nil _) .stop⟩
  have legSized : leg.SizedTuples := .mk (fun _ => ⟨0, legText⟩) (List.forall_mem_cons.2
    ⟨.of_plain (by decide), List.forall_mem_singleton.2 (.of_plain (by decide))⟩)
  have sized : ∀ input ∈ element.inputs, input.SizedTuples :=
    List.forall_mem_singleton.2 (.mk (fun _ => ⟨1, ordersText⟩) (List.forall_mem_cons.2
      ⟨.of_plain (by decide), List.forall_mem_singleton.2 legSized⟩))
  have aligns : element.align [.list [order]] =
      .ok (["(bool,(bool,string))[]"], [.list [order]]) := by cbv
  have plainForm (param : Param) (noTuple : Param.tupleSuffix? param.type = none)
      (argument : Argument) : param.Form argument argument :=
    (Param.form_iff_of_plain noTuple).2 rfl
  have legForm : leg.Form (.list [.bool false, .text "x"]) legByName :=
    (Param.form_iff_of_tupleText legText).2 ⟨_, [.bool false, .text "x"], rfl,
      Param.holds_ofEntries (by decide) rfl, plainForm _ (by decide) _, plainForm _ (by decide) _,
      trivial⟩
  have orderForm : Param.TupleForm orders.components order orderByName :=
    ⟨_, [.bool true, legByName], rfl, Param.holds_ofEntries (by decide) rfl,
      plainForm _ (by decide) _, legForm, trivial⟩
  have ordersForm : orders.Form (.list [order]) (.list [orderByName]) :=
    (Param.form_iff_of_tupleText ordersText).2 ⟨_, _, rfl, rfl, .cons orderForm .nil⟩
  obtain ⟨formsOf, -⟩ := align_of_forms sized [.list [order]]
  obtain ⟨again, -⟩ := formsOf _ _ aligns
  obtain ⟨-, refuses⟩ := align_of_forms sized [.list [orderByName, .list [.bool true, gap]]]
  have parsable : ∃ type, AbiType.parse orders.canonicalType = .ok type :=
    (align_eq_ok_iff.1 aligns).2.2.1 orders List.mem_cons_self
  -- The mapping is the second component of the second item, and all in front of it is aligned.
  have split : orders.components.zip [.bool true, gap] =
      [(⟨"open", "bool", [], none⟩, .bool true)] ++ (leg, gap) :: [] := rfl
  have front : ∀ entry ∈ [((⟨"open", "bool", [], none⟩ : Param), Argument.bool true)], ∀ levels,
      entry.1.TupleText levels → entry.1.AlignsAt levels entry.2 := by
    simp only [List.forall_mem_singleton]
    rintro levels ⟨suffix, tuple, -⟩
    cases tuple
  have stands : Param.HasTuple Param.AlignsAt orders 1
      (.list ([orderByName] ++ .list [.bool true, gap] :: [])) leg gap :=
    .item (List.forall_mem_singleton.2 ⟨order, orderForm⟩)
      (.component (.list rfl) split front legText .here)
  have getsTo : element.GetsTo [.list [orderByName, .list [.bool true, gap]]] leg gap :=
    ⟨rfl, [], orders, _, [], 1, rfl, by simpa using parsable, by simp, ordersText, stands⟩
  have uncovered : ¬Param.Covered leg.components [("note", .bytes []), ("to", .bool true)] := by
    rintro ⟨-, found⟩
    simpa [leg] using found ⟨"memo", "string", [], none⟩ (by simp [leg])
  obtain ⟨name, -, failed⟩ := (refuses leg _ getsTo).1 uncovered
  exact ⟨sized, aligns, again _ ⟨ordersForm, trivial⟩, name, failed⟩

end Element

end ContractAbi
