import ContractAbi.Proofs.Call.Form

/-!
# The shape of aligned arguments

Aligned arguments have the shape that their parameters declare: a tuple is a list of its components,
below as many lists as its type text has array sizes. Alignment gives arguments this shape and does
nothing to arguments that have it, so a second alignment changes nothing
(`Element.align_idempotent`).
-/

namespace ContractAbi

namespace Argument

/-- The argument is a list as deep as the levels say, and all that stands below has the property. -/
def Nested (below : Argument → Prop) : (levels : Nat) → Argument → Prop
  | 0, argument => below argument
  | levels + 1, argument => ∃ items, argument = .list items ∧
      ∀ item ∈ items, Nested below levels item

/-- What is related to something below has a property, so it is nested around that property. -/
theorem Nested.of_levels {related : Argument → Argument → Prop} {below : Argument → Prop}
    (shaped : ∀ {left right}, related left right → below left) {levels : Nat}
    {left right : Argument} (same : Levels related levels left right) :
    Nested below levels left := by
  induction levels generalizing left right with
  | zero => exact shaped same
  | succ levels inductionHypothesis =>
    obtain ⟨lefts, rights, rfl, rfl, each⟩ := same
    have shapedEach := each.imp fun _ _ itemSame =>
      And.intro (inductionHypothesis itemSame) itemSame
    exact ⟨lefts, rfl, ((List.forall₂_and_left _ _).1 shapedEach).1⟩

/-- What is nested around a property that relates to itself is so related to itself. -/
theorem Nested.levels_self {related : Argument → Argument → Prop} {below : Argument → Prop}
    (reflexive : ∀ {argument}, below argument → related argument argument) {levels : Nat}
    {argument : Argument} (nested : Nested below levels argument) :
    Levels related levels argument argument := by
  induction levels generalizing argument with
  | zero => exact reflexive nested
  | succ levels inductionHypothesis =>
    obtain ⟨items, rfl, each⟩ := nested
    exact ⟨items, items, rfl, rfl, List.forall₂_same.2 fun item member =>
      inductionHypothesis (each item member)⟩

end Argument

namespace Param

mutual
/-- The argument has the shape that the parameter declares. Where no tuple is declared, every
argument has it. -/
def HasShape : Param → Argument → Prop
  | ⟨name, type, components, internalType⟩, argument =>
    tupleSuffix? type = none ∨
    ∃ levels, TupleText ⟨name, type, components, internalType⟩ levels ∧
      Argument.Nested (fun tuple => ∃ items, tuple = .list items ∧ HaveShapes components items)
        levels argument

/-- Each argument has the shape that its parameter declares, and there is one for each. -/
def HaveShapes : List Param → List Argument → Prop
  | param :: params, argument :: arguments =>
    param.HasShape argument ∧ HaveShapes params arguments
  | [], [] => True
  | _, _ => False
end

theorem haveShapes_of_forms {params : List Param}
    (each : ∀ param ∈ params, ∀ {aligned form}, param.Form aligned form → param.HasShape aligned)
    {aligned forms : List Argument} (areForms : Forms params aligned forms) :
    HaveShapes params aligned := by
  induction params generalizing aligned forms with
  | nil => cases aligned <;> cases forms <;> simp_all [Forms, HaveShapes]
  | cons param params inductionHypothesis =>
    obtain ⟨first, others⟩ := List.forall_mem_cons.1 each
    obtain ⟨_, _, _, _, rfl, rfl, firstForm, otherForms⟩ := forms_cons_iff.1 areForms
    exact ⟨first firstForm, inductionHypothesis others otherForms⟩

/-- What an argument is aligned to has the declared shape. -/
theorem hasShape_of_form {param : Param} {aligned form : Argument}
    (isForm : param.Form aligned form) : param.HasShape aligned := by
  induction param generalizing aligned form with
  | mk name type components internalType inductionHypothesis =>
    rw [Form] at isForm
    rw [HasShape]
    rcases isForm with ⟨plain, -⟩ | ⟨levels, text, below⟩
    · exact .inl plain
    · refine .inr ⟨levels, text, Argument.Nested.of_levels ?_ below⟩
      rintro tuple _ ⟨items, values, rfl, -, each⟩
      exact ⟨items, rfl, haveShapes_of_forms inductionHypothesis each⟩

theorem forms_self_of_haveShapes {params : List Param}
    (each : ∀ param ∈ params, ∀ {argument}, param.HasShape argument → param.Form argument argument)
    {arguments : List Argument} (shaped : HaveShapes params arguments) :
    arguments.length = params.length ∧ Forms params arguments arguments := by
  induction params generalizing arguments with
  | nil => cases arguments <;> simp_all [Forms, HaveShapes]
  | cons param params inductionHypothesis =>
    obtain ⟨first, others⟩ := List.forall_mem_cons.1 each
    cases arguments with
    | nil => cases shaped
    | cons argument arguments =>
      obtain ⟨firstShaped, othersShaped⟩ := shaped
      obtain ⟨counted, otherForms⟩ := inductionHypothesis others othersShaped
      exact ⟨congrArg (· + 1) counted, first firstShaped, otherForms⟩

/-- An argument of the declared shape is a form of itself. -/
theorem form_self_of_hasShape {param : Param} {argument : Argument}
    (shaped : param.HasShape argument) : param.Form argument argument := by
  induction param generalizing argument with
  | mk name type components internalType inductionHypothesis =>
    rw [HasShape] at shaped
    rw [Form]
    rcases shaped with plain | ⟨levels, text, below⟩
    · exact .inl ⟨plain, rfl⟩
    · refine .inr ⟨levels, text, below.levels_self ?_⟩
      rintro tuple ⟨items, rfl, each⟩
      obtain ⟨counted, areForms⟩ := forms_self_of_haveShapes inductionHypothesis each
      exact ⟨items, items, rfl, .list counted, areForms⟩

/-- Arguments are forms of themselves exactly when they have the declared shapes. -/
theorem forms_self_iff {params : List Param} {arguments : List Argument} :
    Forms params arguments arguments ↔ HaveShapes params arguments :=
  ⟨haveShapes_of_forms fun _ _ _ _ => hasShape_of_form,
    fun shaped => (forms_self_of_haveShapes (fun _ _ _ => form_self_of_hasShape) shaped).2⟩

end Param

namespace Alignment

/-! ## A second alignment -/

/-- Array levels are aligned already when what stands below them is. -/
theorem alignLevels_of_alignLevels {type : String}
    {leaf : Argument → Except EncodingError Argument}
    (below : ∀ {argument aligned}, leaf argument = .ok aligned → leaf aligned = .ok aligned)
    {levels : Nat} {argument aligned : Argument}
    (aligns : alignLevels type leaf levels argument = .ok aligned) :
    alignLevels type leaf levels aligned = .ok aligned := by
  induction levels generalizing argument aligned with
  | zero => exact below aligns
  | succ levels inductionHypothesis =>
    cases argument with
    | list items =>
      obtain ⟨results, mapped, rfl⟩ := Outcome.map_eq_ok.1 aligns
      have again := (mapM_eq_ok_iff.1 mapped).imp fun _ _ itemAligns =>
        And.intro (inductionHypothesis itemAligns) itemAligns
      rw [alignLevels, mapM_eq_self ((List.forall₂_and_left _ _).1 again).1]
      rfl
    | _ => cases aligns

/-- Values are aligned already when each of them is. -/
theorem alignEach_of_alignEach {params : List Param}
    (each : ∀ param ∈ params, ∀ {argument aligned},
      align param argument = .ok aligned → align param aligned = .ok aligned)
    {arguments aligned : List Argument} (counted : arguments.length = params.length)
    (aligns : alignEach params arguments = .ok aligned) :
    aligned.length = params.length ∧ alignEach params aligned = .ok aligned := by
  induction params generalizing arguments aligned with
  | nil =>
    obtain rfl := List.length_eq_zero_iff.1 counted
    cases aligns
    exact ⟨rfl, rfl⟩
  | cons param params inductionHypothesis =>
    obtain ⟨eachFirst, eachOther⟩ := List.forall_mem_cons.1 each
    cases arguments with
    | nil => cases counted
    | cons argument arguments =>
      simp only [alignEach, Outcome.bind_eq_ok, Outcome.pure_eq, Except.ok.injEq] at aligns
      obtain ⟨first, firstAligns, others, othersAlign, rfl⟩ := aligns
      obtain ⟨othersCounted, again⟩ :=
        inductionHypothesis eachOther (Nat.succ.inj counted) othersAlign
      refine ⟨congrArg (· + 1) othersCounted, ?_⟩
      simp only [alignEach, eachFirst firstAligns, again, Outcome.ok_bind, Outcome.pure_eq]

/-- An aligned argument stays as it is, whatever the type text says behind the word `tuple`. -/
theorem align_of_align {param : Param} {argument aligned : Argument}
    (aligns : align param argument = .ok aligned) : align param aligned = .ok aligned := by
  induction param generalizing argument aligned with
  | mk name type components internalType inductionHypothesis =>
    simp only [align] at aligns ⊢
    split at aligns
    · rfl
    · refine alignLevels_of_alignLevels ?_ aligns
      intro argument aligned tupleAligns
      simp only [Outcome.bind_eq_ok, Outcome.pure_eq, Except.ok.injEq] at tupleAligns
      obtain ⟨values, isValues, items, itemsAlign, rfl⟩ := tupleAligns
      have counted := (componentValues_eq_ok_iff.1 isValues).length_eq
      obtain ⟨itemsCounted, again⟩ := alignEach_of_alignEach inductionHypothesis counted itemsAlign
      simp only [componentValues, itemsCounted, ↓reduceIte, again, Outcome.ok_bind,
        Outcome.pure_eq]

theorem zipWith_align_of_zipWith {inputs : List Param} {arguments aligned : List Argument}
    (aligns : List.zipWith align inputs arguments = aligned.map .ok) :
    List.zipWith align inputs aligned = aligned.map .ok := by
  induction inputs generalizing arguments aligned with
  | nil => simpa using aligns
  | cons input inputs inductionHypothesis =>
    cases arguments with
    | nil =>
      obtain rfl := List.map_eq_nil_iff.1 aligns.symm
      rfl
    | cons argument arguments =>
      cases aligned with
      | nil => simp
      | cons first others =>
        simp only [List.zipWith_cons_cons, List.map_cons, List.cons.injEq] at aligns ⊢
        exact ⟨align_of_align aligns.1, inductionHypothesis aligns.2⟩

end Alignment

namespace Element

variable {element : Element}

/-- Aligned arguments are aligned already. -/
theorem align_of_align {arguments aligned : List Argument} {types : List String}
    (aligns : element.align arguments = .ok (types, aligned)) :
    element.align aligned = .ok (types, aligned) := by
  have counted := length_of_align aligns
  obtain ⟨-, rfl, parsable, each⟩ := align_eq_ok_iff.1 aligns
  rw [inputTypes, List.length_map] at counted
  exact align_eq_ok_iff.2
    ⟨counted.symm, rfl, parsable, Alignment.zipWith_align_of_zipWith each⟩

/-- Alignment settles after one step. Aligned arguments are aligned already, at the canonical types.
Where every type text that starts with the word `tuple` is this word with array sizes, aligned
arguments have the shape that the inputs declare and differ from the given ones in their tuples
alone; and arguments stay as they are exactly when they have this shape and the canonical types
stand for types. -/
theorem align_idempotent (element : Element) :
    (∀ arguments types aligned, element.align arguments = .ok (types, aligned) →
      element.align aligned = .ok (types, aligned) ∧ types = element.inputTypes) ∧
    ((∀ input ∈ element.inputs, input.SizedTuples) →
      (∀ arguments types aligned, element.align arguments = .ok (types, aligned) →
        Param.HaveShapes element.inputs aligned ∧
          Param.Forms element.inputs aligned arguments) ∧
      ∀ arguments, (∃ types, element.align arguments = .ok (types, arguments)) ↔
        Param.HaveShapes element.inputs arguments ∧
          ∀ input ∈ element.inputs, ∃ type, AbiType.parse input.canonicalType = .ok type) := by
  refine ⟨?_, ?_⟩
  · intro arguments types aligned aligns
    exact ⟨align_of_align aligns, (align_eq_ok_iff.1 aligns).2.1⟩
  · intro sized
    refine ⟨?_, ?_⟩
    · intro arguments types aligned aligns
      obtain ⟨-, -, areForms⟩ := (align_eq_ok_iff_forms sized).1 aligns
      exact ⟨Param.haveShapes_of_forms (fun _ _ _ _ => Param.hasShape_of_form) areForms, areForms⟩
    · intro arguments
      simp only [align_eq_ok_iff_forms sized, Param.forms_self_iff, exists_eq_left]
      exact and_comm

/-- A mapping in an array becomes a list, which stays as it is, and the mapping for a component that
is no tuple stays a mapping. The size of the array is not compared. -/
theorem align_idempotent_of_mapping :
    let pair : Param := ⟨"a", "tuple[2]", [⟨"x", "bool", [], none⟩, ⟨"y", "bytes", [], none⟩], none⟩
    let element : Element := .function ⟨"f", [pair], [], .nonPayable⟩
    let given : Argument := .list [.map [("x", .bool true), ("y", .map [])]]
    let aligned : Argument := .list [.list [.bool true, .map []]]
    (∀ input ∈ element.inputs, input.SizedTuples) ∧
      element.align [given] = .ok (["(bool,bytes)[2]"], [aligned]) ∧
      element.align [aligned] = .ok (["(bool,bytes)[2]"], [aligned]) ∧
      Param.HaveShapes element.inputs [aligned] ∧ ¬Param.HaveShapes element.inputs [given] := by
  intro pair element given aligned
  have twoIsDigit : ∀ char ∈ ['2'], char.isDigit = true := List.forall_mem_singleton.2 rfl
  have text : pair.TupleText 1 := ⟨['[', '2', ']'], by decide, .size twoIsDigit .stop⟩
  have sized : ∀ input ∈ element.inputs, input.SizedTuples :=
    List.forall_mem_singleton.2 (.mk (fun _ => ⟨1, text⟩) (List.forall_mem_cons.2
      ⟨.of_plain (by decide), List.forall_mem_singleton.2 (.of_plain (by decide))⟩))
  have aligns : element.align [given] = .ok (["(bool,bytes)[2]"], [aligned]) := by cbv
  obtain ⟨settles, shapes⟩ := align_idempotent element
  obtain ⟨again, -⟩ := settles _ _ _ aligns
  obtain ⟨shaped, fixed⟩ := shapes sized
  obtain ⟨hasShape, -⟩ := shaped _ _ _ aligns
  refine ⟨sized, aligns, again, hasShape, ?_⟩
  intro givenShape
  obtain ⟨-, -, parsable, -⟩ := align_eq_ok_iff.1 aligns
  obtain ⟨types, stays⟩ := (fixed [given]).2 ⟨givenShape, parsable⟩
  have same : [aligned] = [given] :=
    (Prod.mk.inj (Except.ok.inj (aligns.symm.trans stays))).2
  simp [given, aligned] at same

end Element

end ContractAbi
