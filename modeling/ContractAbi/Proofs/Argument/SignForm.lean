import ContractAbi.Argument.Rendering
import ContractAbi.Proofs.Argument.Number
import ContractAbi.Proofs.Keyed

/-!
# Sign forms of integers

An integer that is not negative can be supplied in a signed and in an unsigned form. Arguments that
differ in nothing else have the same unsigned form (`Argument.Respelled.unsignedForm_eq`), and an
argument is coerced and rendered as its unsigned form is.
-/

namespace ContractAbi.Argument

/-- Two arguments differ at most in the sign forms of the integers in them. -/
inductive Respelled : Argument → Argument → Prop where
  | same (argument : Argument) : Respelled argument argument
  /-- Two integers stand for one number. -/
  | number {left right : Argument} {number : Int} (isLeft : left.number? = some number)
    (isRight : right.number? = some number) : Respelled left right
  | list {lefts rights : List Argument} (each : List.Forall₂ Respelled lefts rights) :
    Respelled (.list lefts) (.list rights)
  | map {lefts rights : List (String × Argument)} (keys : lefts.map Prod.fst = rights.map Prod.fst)
    (values : List.Forall₂ Respelled (lefts.map Prod.snd) (rights.map Prod.snd)) :
    Respelled (.map lefts) (.map rights)

/-- Induction over an argument, in which a list may rest on its items and a mapping on its
values. -/
theorem inductionOn {motive : Argument → Prop} (bool : ∀ value, motive (.bool value))
    (int : ∀ number, motive (.int number)) (uint : ∀ number, motive (.uint number))
    (text : ∀ content, motive (.text content)) (bytes : ∀ content, motive (.bytes content))
    (address : ∀ place, motive (.address place))
    (list : ∀ items, (∀ item ∈ items, motive item) → motive (.list items))
    (map : ∀ entries, (∀ value ∈ entries.map Prod.snd, motive value) → motive (.map entries))
    (argument : Argument) : motive argument :=
  @Argument.rec motive (fun items => ∀ item ∈ items, motive item)
    (fun entries => ∀ value ∈ entries.map Prod.snd, motive value) (fun entry => motive entry.2)
    bool int uint text bytes address list map
    (fun _ absent => absurd absent List.not_mem_nil)
    (fun _ _ first others => List.forall_mem_cons.2 ⟨first, others⟩)
    (fun _ absent => absurd absent List.not_mem_nil)
    (fun _ _ first others => List.forall_mem_cons.2 ⟨first, others⟩)
    (fun _ _ value => value) argument

/-- Induction over arguments in a row, of which a list may rest on its items. -/
theorem rowInduction {motive : List Argument → Prop} (nil : motive [])
    (leaf : ∀ argument arguments, argument.list? = none → motive arguments →
      motive (argument :: arguments))
    (list : ∀ items arguments, motive items → motive arguments →
      motive (.list items :: arguments)) :
    (arguments : List Argument) → motive arguments
  | [] => nil
  | .list items :: arguments =>
    list items arguments (rowInduction nil leaf list items) (rowInduction nil leaf list arguments)
  | .bool _ :: arguments | .int _ :: arguments | .uint _ :: arguments | .text _ :: arguments
  | .bytes _ :: arguments | .address _ :: arguments | .map _ :: arguments =>
    leaf _ arguments rfl (rowInduction nil leaf list arguments)

mutual
/-- The argument with all integers unsigned that are not negative. -/
def unsignedForm : Argument → Argument
  | .int number => ((Argument.int number).unsigned?.map .uint).getD (.int number)
  | .list items => .list (unsignedForms items)
  | .map entries => .map (unsignedEntries entries)
  | argument => argument

/-- The unsigned forms of arguments. -/
def unsignedForms : List Argument → List Argument
  | [] => []
  | argument :: arguments => argument.unsignedForm :: unsignedForms arguments

/-- Entries with the unsigned forms of their values. -/
def unsignedEntries : List (String × Argument) → List (String × Argument)
  | [] => []
  | (key, value) :: entries => (key, value.unsignedForm) :: unsignedEntries entries
end

theorem unsignedForms_eq_map (arguments : List Argument) :
    unsignedForms arguments = arguments.map unsignedForm := by
  induction arguments with
  | nil => rfl
  | cons argument arguments inductionHypothesis => simp [unsignedForms, inductionHypothesis]

theorem unsignedEntries_eq_map (entries : List (String × Argument)) :
    unsignedEntries entries = Keyed.mapValues unsignedForm entries := by
  induction entries with
  | nil => rfl
  | cons entry entries inductionHypothesis =>
    rw [unsignedEntries, inductionHypothesis, Keyed.mapValues_cons]

@[simp] theorem unsignedForm_list (items : List Argument) :
    (Argument.list items).unsignedForm = .list (items.map unsignedForm) := by
  rw [unsignedForm, unsignedForms_eq_map]

@[simp] theorem unsignedForm_map (entries : List (String × Argument)) :
    (Argument.map entries).unsignedForm = .map (Keyed.mapValues unsignedForm entries) := by
  rw [unsignedForm, unsignedEntries_eq_map]

/-! ## One number in two forms -/

/-- A number that is not negative has one unsigned form. -/
theorem unsignedForm_of_number? {argument : Argument} {number : Uint256}
    (supplied : argument.number? = some (number.toNat : Int)) :
    argument.unsignedForm = .uint number := by
  have unsigned := unsigned?_eq_some_iff.2 supplied
  cases argument with
  | int => rw [unsignedForm, unsigned, Option.map_some, Option.getD_some]
  | uint => exact congrArg Argument.uint (Option.some.inj unsigned)
  | _ => cases unsigned

theorem unsignedForm_eq_of_number? {left right : Argument} {number : Int}
    (isLeft : left.number? = some number) (isRight : right.number? = some number) :
    left.unsignedForm = right.unsignedForm := by
  have natural (unsigned : Uint256) (same : number = unsigned.toNat) :
      left.unsignedForm = right.unsignedForm := by
    rw [unsignedForm_of_number? (same ▸ isLeft), unsignedForm_of_number? (same ▸ isRight)]
  cases left with
  | uint unsigned => exact natural unsigned (Option.some.inj isLeft).symm
  | int signed =>
    cases right with
    | uint unsigned => exact natural unsigned (Option.some.inj isRight).symm
    | int other =>
      obtain rfl : signed = other :=
        Option.some.inj ((signed?_eq_some_iff.2 (isLeft.trans isRight.symm)).trans rfl)
      rfl
    | _ => cases isRight
  | _ => cases isLeft

theorem map_unsignedForm_eq {lefts rights : List Argument}
    (each : ∀ left ∈ lefts, ∀ {right : Argument}, left.Respelled right →
      left.unsignedForm = right.unsignedForm)
    (respelled : List.Forall₂ Respelled lefts rights) :
    lefts.map unsignedForm = rights.map unsignedForm := by
  induction respelled with
  | nil => rfl
  | cons first _ inductionHypothesis =>
    obtain ⟨eachFirst, others⟩ := List.forall_mem_cons.1 each
    rw [List.map_cons, List.map_cons, eachFirst first, inductionHypothesis others]

/-- Arguments that differ in sign forms only have the same unsigned form. -/
theorem Respelled.unsignedForm_eq {left right : Argument} (respelled : left.Respelled right) :
    left.unsignedForm = right.unsignedForm := by
  induction left using inductionOn generalizing right with
  | list items inductionHypothesis =>
    cases respelled with
    | same => rfl
    | number isLeft => cases isLeft
    | list each =>
      rw [unsignedForm_list, unsignedForm_list, map_unsignedForm_eq inductionHypothesis each]
  | map entries inductionHypothesis =>
    cases respelled with
    | same => rfl
    | number isLeft => cases isLeft
    | map keys values =>
      rw [unsignedForm_map, unsignedForm_map,
        Keyed.mapValues_congr keys (map_unsignedForm_eq inductionHypothesis values)]
  | _ =>
    cases respelled with
    | same => rfl
    | number isLeft isRight => exact unsignedForm_eq_of_number? isLeft isRight

/-! ## What does not depend on sign forms -/

/-- What is the same for all integers, and does not depend on what stands in a list or a mapping,
is the same for an argument and for its unsigned form. -/
theorem apply_unsignedForm {α : Type} (view : Argument → α)
    (integers : ∀ signed unsigned, view (.uint unsigned) = view (.int signed))
    (lists : ∀ items others, view (.list items) = view (.list others))
    (mappings : ∀ entries others, view (.map entries) = view (.map others))
    (argument : Argument) : view argument.unsignedForm = view argument := by
  cases argument with
  | int number =>
    rw [unsignedForm]
    cases (Argument.int number).unsigned? with
    | none => rfl
    | some unsigned => exact integers number unsigned
  | list items => exact lists _ _
  | map entries => exact mappings _ _
  | _ => rfl

variable {strict : Bool}

@[simp] theorem number?_unsignedForm (argument : Argument) :
    argument.unsignedForm.number? = argument.number? := by
  cases argument with
  | int number =>
    rw [unsignedForm]
    cases unsigned : (Argument.int number).unsigned? with
    | none => rfl
    | some natural => exact (unsigned?_eq_some_iff.1 unsigned).symm
  | _ => rfl

theorem list?_unsignedForm (argument : Argument) :
    argument.unsignedForm.list? = argument.list?.map (List.map unsignedForm) := by
  cases argument with
  | int number =>
    rw [unsignedForm]
    cases (Argument.int number).unsigned? <;> rfl
  | list items => simp [list?]
  | _ => rfl

theorem readableType_unsignedForm (argument : Argument) :
    argument.unsignedForm.readableType = argument.readableType :=
  apply_unsignedForm readableType (fun _ _ => rfl) (fun _ _ => rfl) (fun _ _ => rfl) argument

theorem coerceEach_map_unsignedForm {types : List AbiType}
    (each : ∀ type ∈ types, ∀ argument,
      coerce strict type argument.unsignedForm = coerce strict type argument)
    (arguments : List Argument) :
    coerceEach strict types (arguments.map unsignedForm) = coerceEach strict types arguments := by
  induction types generalizing arguments with
  | nil => cases arguments <;> rfl
  | cons type types inductionHypothesis =>
    cases arguments with
    | nil => rfl
    | cons argument arguments =>
      obtain ⟨first, others⟩ := List.forall_mem_cons.1 each
      rw [List.map_cons, coerceEach, coerceEach, first, inductionHypothesis others]

/-- An argument is coerced as its unsigned form is. -/
theorem coerce_unsignedForm (strict : Bool) (type : AbiType) (argument : Argument) :
    coerce strict type argument.unsignedForm = coerce strict type argument := by
  induction type generalizing argument with
  | uint width =>
    ext value
    rw [coerce_uint_eq_some_iff, coerce_uint_eq_some_iff, number?_unsignedForm]
  | int width =>
    ext value
    rw [coerce_int_eq_some_iff, coerce_int_eq_some_iff, number?_unsignedForm]
  | array element inductionHypothesis =>
    simp only [coerce, list?_unsignedForm]
    cases argument.list? with
    | none => rfl
    | some items => simp [List.mapM_map, Function.comp_def, inductionHypothesis]
  | fixedArray element length inductionHypothesis =>
    simp only [coerce, list?_unsignedForm]
    cases argument.list? with
    | none => rfl
    | some items => simp [List.mapM_map, Function.comp_def, inductionHypothesis]
  | tuple members inductionHypothesis =>
    simp only [coerce, list?_unsignedForm]
    cases argument.list? with
    | none => rfl
    | some items => simp [coerceEach_map_unsignedForm inductionHypothesis]
  | _ => exact apply_unsignedForm _ (fun _ _ => rfl) (fun _ _ => rfl) (fun _ _ => rfl) argument

theorem coerceText_unsignedForm (strict : Bool) (text : String) (argument : Argument) :
    coerceText strict text argument.unsignedForm = coerceText strict text argument := by
  simp only [coerceText, coerce_unsignedForm]

/-! ## Rendering -/

theorem renderedTypes_cons_of_not_list {argument : Argument} (notList : argument.list? = none)
    (arguments : List Argument) :
    renderedTypes (argument :: arguments) = argument.readableType :: renderedTypes arguments := by
  cases argument with
  | list => cases notList
  | _ => simp [renderedTypes]

theorem itemTypes_cons_of_not_list {item : Argument} (notList : item.list? = none)
    (items : List Argument) : itemTypes (item :: items) = item.readableType :: itemTypes items := by
  cases item with
  | list => cases notList
  | _ => simp [itemTypes]

/-- Arguments are rendered as their unsigned forms are. -/
theorem renderedTypes_map_unsignedForm (arguments : List Argument) :
    renderedTypes (arguments.map unsignedForm) = renderedTypes arguments ∧
    itemTypes (arguments.map unsignedForm) = itemTypes arguments := by
  induction arguments using rowInduction with
  | nil => exact ⟨rfl, rfl⟩
  | leaf argument arguments notList inductionHypothesis =>
    obtain ⟨rendered, asItems⟩ := inductionHypothesis
    have stillNotList : argument.unsignedForm.list? = none := by
      rw [list?_unsignedForm, notList]
      rfl
    constructor
    · rw [List.map_cons, renderedTypes_cons_of_not_list stillNotList, readableType_unsignedForm,
        rendered, renderedTypes_cons_of_not_list notList]
    · rw [List.map_cons, itemTypes_cons_of_not_list stillNotList, readableType_unsignedForm,
        asItems, itemTypes_cons_of_not_list notList]
  | list items arguments itemsHypothesis inductionHypothesis =>
    obtain ⟨renderedInside, asItemsInside⟩ := itemsHypothesis
    obtain ⟨rendered, asItems⟩ := inductionHypothesis
    constructor
    · rw [List.map_cons, unsignedForm_list, renderedTypes, renderedTypes, asItemsInside, rendered]
    · rw [List.map_cons, unsignedForm_list, itemTypes, itemTypes, renderedInside, asItems]

theorem renderTypes_map_unsignedForm (arguments : List Argument) :
    renderTypes (arguments.map unsignedForm) = renderTypes arguments := by
  rw [renderTypes, (renderedTypes_map_unsignedForm arguments).1, renderTypes]

end ContractAbi.Argument
