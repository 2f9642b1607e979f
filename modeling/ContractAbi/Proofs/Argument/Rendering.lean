import ContractAbi.Proofs.Argument.Interchange
import ContractAbi.Proofs.Argument.SignForm
import ContractAbi.Proofs.Text.Parentheses

/-!
# Rendered types by depth

Rendering goes two levels of lists deep at a time. So it opens a list at an even depth, and puts one
at an odd depth in parentheses (`Argument.renderTypes_eq_intercalate`). Between its commas stands
the type of each leaf, and nothing for a list without items (`Argument.pieces_renderTypes`).
-/

namespace ContractAbi.Argument

/-! ## Types by depth -/

mutual
/-- The type of an argument at a depth. A list shows the types of its items, which are one deeper,
with commas between them: as they are at an even depth, in parentheses at an odd one. -/
def typeAt (depth : Nat) : Argument → String
  | .list items =>
    let joined := ",".intercalate (typesAt (depth + 1) items)
    if Even depth then joined else "(" ++ joined ++ ")"
  | argument => argument.readableType

/-- The types of arguments at one depth. -/
def typesAt (depth : Nat) : List Argument → List String
  | [] => []
  | argument :: arguments => argument.typeAt depth :: typesAt depth arguments
end

variable {argument leaf : Argument} {arguments : List Argument} {depth : Nat}

theorem typesAt_eq_map (depth : Nat) (arguments : List Argument) :
    typesAt depth arguments = arguments.map (typeAt depth) := by
  induction arguments with
  | nil => rfl
  | cons argument arguments inductionHypothesis => rw [typesAt, inductionHypothesis, List.map_cons]

theorem typeAt_list_of_even (even : Even depth) (items : List Argument) :
    (Argument.list items).typeAt depth = ",".intercalate (items.map (typeAt (depth + 1))) := by
  rw [typeAt, typesAt_eq_map, if_pos even]

theorem typeAt_list_of_not_even (odd : ¬Even depth) (items : List Argument) :
    (Argument.list items).typeAt depth =
      "(" ++ ",".intercalate (items.map (typeAt (depth + 1))) ++ ")" := by
  rw [typeAt, typesAt_eq_map, if_neg odd]

theorem typeAt_of_not_list (notList : argument.list? = none) :
    argument.typeAt depth = argument.readableType := by
  cases argument with
  | list => cases notList
  | _ => rfl

/-- Two levels of lists at a time come to the same as one level after the other. -/
theorem renderedTypes_eq_map (arguments : List Argument) (depth : Nat) :
    (Even depth → renderedTypes arguments = arguments.map (typeAt depth)) ∧
    (¬Even depth → itemTypes arguments = arguments.map (typeAt depth)) := by
  induction arguments using rowInduction generalizing depth with
  | nil => simp [renderedTypes, itemTypes]
  | leaf argument arguments notList inductionHypothesis =>
    obtain ⟨rendered, asItems⟩ := inductionHypothesis depth
    constructor
    · intro even
      rw [renderedTypes_cons_of_not_list notList, List.map_cons, typeAt_of_not_list notList,
        rendered even]
    · intro odd
      rw [itemTypes_cons_of_not_list notList, List.map_cons, typeAt_of_not_list notList,
        asItems odd]
  | list items arguments itemsHypothesis inductionHypothesis =>
    obtain ⟨renderedInside, asItemsInside⟩ := itemsHypothesis (depth + 1)
    obtain ⟨rendered, asItems⟩ := inductionHypothesis depth
    constructor
    · intro even
      have oddInside : ¬Even (depth + 1) := fun inside => Nat.even_add_one.1 inside even
      rw [renderedTypes, List.map_cons, typeAt_list_of_even even, asItemsInside oddInside,
        rendered even]
    · intro odd
      have evenInside : Even (depth + 1) := Nat.even_add_one.2 odd
      rw [itemTypes, List.map_cons, typeAt_list_of_not_even odd, renderedInside evenInside,
        asItems odd]

theorem renderTypes_eq_intercalate (arguments : List Argument) :
    renderTypes arguments = ",".intercalate (arguments.map (typeAt 0)) := by
  obtain ⟨rendered, -⟩ := renderedTypes_eq_map arguments 0
  rw [renderTypes, rendered Even.zero]

/-! ## The words for kinds -/

/-- The words for kinds of arguments have neither parentheses nor commas. -/
theorem plain_readableType (argument : Argument) :
    argument.readableType ≠ "" ∧ '(' ∉ argument.readableType.toList ∧
      ')' ∉ argument.readableType.toList ∧ ',' ∉ argument.readableType.toList := by
  have plain : ∀ word ∈ ["address", "bool", "int", "string", "bytes", "list", "map"],
      word ≠ "" ∧ '(' ∉ word.toList ∧ ')' ∉ word.toList ∧ ',' ∉ word.toList := by decide
  apply plain
  unfold readableType
  split
  · exact List.mem_cons_self
  · cases argument <;> simp

/-- Parentheses are balanced in the type of an argument at any depth. -/
theorem balanced_typeAt (argument : Argument) (depth : Nat) :
    Text.Balanced (argument.typeAt depth).toList := by
  induction argument using inductionOn generalizing depth with
  | list items inductionHypothesis =>
    have joined : Text.Balanced (",".intercalate (items.map (typeAt (depth + 1)))).toList := by
      apply Text.Balanced.intercalate
      intro text member
      obtain ⟨item, isItem, rfl⟩ := List.mem_map.1 member
      exact inductionHypothesis item isItem (depth + 1)
    by_cases even : Even depth
    · rw [typeAt_list_of_even even]
      exact joined
    · rw [typeAt_list_of_not_even even, String.toList_append, String.toList_append]
      exact joined.enclosed
  | _ =>
    obtain ⟨-, noOpening, noClosing, -⟩ := plain_readableType _
    rw [typeAt_of_not_list rfl]
    exact .of_plain noOpening noClosing

/-! ## Leaves -/

mutual
/-- The leaves of an argument in order, at any depth of lists. -/
def leaves : Argument → List Argument
  | .list (item :: items) => item.leaves ++ leavesOf items
  | leaf => [leaf]

/-- The leaves of arguments in order. -/
def leavesOf : List Argument → List Argument
  | [] => []
  | argument :: arguments => argument.leaves ++ leavesOf arguments
end

/-- A leaf is no list, or a list without items. -/
def IsLeaf (argument : Argument) : Prop :=
  argument.list? = none ∨ argument = .list []

/-- The argument is one of those given, or stands in a list among them, at any depth. -/
inductive Within : Argument → List Argument → Prop where
  | here {argument : Argument} {arguments : List Argument} (member : argument ∈ arguments) :
    Within argument arguments
  | inside {argument : Argument} {items arguments : List Argument}
    (isList : .list items ∈ arguments) (within : Within argument items) : Within argument arguments

theorem leavesOf_eq_flatMap (arguments : List Argument) :
    leavesOf arguments = arguments.flatMap leaves := by
  induction arguments with
  | nil => rfl
  | cons argument arguments inductionHypothesis =>
    rw [leavesOf, inductionHypothesis, List.flatMap_cons]

theorem IsLeaf.leaves_eq (isLeaf : leaf.IsLeaf) : leaf.leaves = [leaf] := by
  obtain notList | rfl := isLeaf
  · cases leaf with
    | list => cases notList
    | _ => rfl
  · rfl

theorem leaves_list {items : List Argument} (nonempty : items ≠ []) :
    (Argument.list items).leaves = items.flatMap leaves := by
  cases items with
  | nil => exact absurd rfl nonempty
  | cons item items => rw [leaves, leavesOf_eq_flatMap, List.flatMap_cons]

theorem leaves_ne_nil (argument : Argument) : argument.leaves ≠ [] := by
  induction argument using inductionOn with
  | list items inductionHypothesis =>
    cases items with
    | nil => simp [leaves]
    | cons item items => simp [leaves, inductionHypothesis item List.mem_cons_self]
  | _ => simp [leaves]

theorem Within.of_subset {others : List Argument} (subset : arguments ⊆ others)
    (within : argument.Within arguments) : argument.Within others := by
  cases within with
  | here member => exact .here (subset member)
  | inside isList within => exact .inside (subset isList) within

theorem within_of_mem_leaves (member : leaf ∈ arguments.flatMap leaves) :
    leaf.Within arguments ∧ leaf.IsLeaf := by
  induction arguments using rowInduction with
  | nil => cases member
  | leaf argument arguments notList inductionHypothesis =>
    have isLeaf : argument.IsLeaf := .inl notList
    rw [List.flatMap_cons, isLeaf.leaves_eq, List.singleton_append] at member
    obtain rfl | member := List.mem_cons.1 member
    · exact ⟨.here List.mem_cons_self, isLeaf⟩
    · obtain ⟨within, isLeaf⟩ := inductionHypothesis member
      exact ⟨within.of_subset (List.subset_cons_self _ _), isLeaf⟩
  | list items arguments itemsHypothesis inductionHypothesis =>
    obtain member | member := List.mem_append.1 member
    · by_cases nonempty : items = []
      · subst nonempty
        obtain rfl := List.mem_singleton.1 member
        exact ⟨.here List.mem_cons_self, .inr rfl⟩
      · rw [leaves_list nonempty] at member
        obtain ⟨within, isLeaf⟩ := itemsHypothesis member
        exact ⟨.inside List.mem_cons_self within, isLeaf⟩
    · obtain ⟨within, isLeaf⟩ := inductionHypothesis member
      exact ⟨within.of_subset (List.subset_cons_self _ _), isLeaf⟩

theorem Within.mem_leaves (within : leaf.Within arguments) (isLeaf : leaf.IsLeaf) :
    leaf ∈ arguments.flatMap leaves := by
  induction within with
  | here member =>
    apply List.mem_flatMap_of_mem member
    rw [isLeaf.leaves_eq]
    exact List.mem_singleton_self _
  | @inside items arguments isList _ inductionHypothesis =>
    have nonempty : items ≠ [] := by
      rintro rfl
      cases inductionHypothesis
    apply List.mem_flatMap_of_mem isList
    rw [leaves_list nonempty]
    exact inductionHypothesis

/-- No leaf is lost, at any depth of lists. -/
theorem mem_leaves_iff : leaf ∈ arguments.flatMap leaves ↔ leaf.Within arguments ∧ leaf.IsLeaf :=
  ⟨within_of_mem_leaves, fun ⟨within, isLeaf⟩ => within.mem_leaves isLeaf⟩

/-! ## What stands between commas -/

/-- What stands for a leaf between commas: its type, and nothing for a list. -/
def entry : Argument → String
  | .list _ => ""
  | leaf => leaf.readableType

theorem entry_of_not_list (notList : leaf.list? = none) : leaf.entry = leaf.readableType := by
  cases leaf with
  | list => cases notList
  | _ => rfl

theorem comma_not_mem_entry (leaf : Argument) : ',' ∉ leaf.entry.toList := by
  cases leaf with
  | list => simp [entry]
  | _ =>
    obtain ⟨-, -, -, noComma⟩ := plain_readableType _
    exact noComma

/-- Only a list without items leaves its place empty. -/
theorem IsLeaf.entry_eq_empty_iff (isLeaf : leaf.IsLeaf) : leaf.entry = "" ↔ leaf = .list [] := by
  obtain notList | rfl := isLeaf
  · obtain ⟨written, -⟩ := leaf.plain_readableType
    rw [entry_of_not_list notList]
    refine iff_of_false written ?_
    rintro rfl
    cases notList
  · exact iff_of_true rfl rfl

/-- Only the forms of an address are called one. -/
theorem readableType_eq_address_iff_form (argument : Argument) :
    argument.readableType = "address" ↔ ∃ place, AddressForm place argument := by
  rw [readableType_eq_address_iff, isAddressLike_eq_isSome, Option.isSome_iff_exists]
  simp only [address?_eq_some_iff]

theorem entry_eq_address_iff (leaf : Argument) :
    leaf.entry = "address" ↔ ∃ place, AddressForm place leaf := by
  rw [← readableType_eq_address_iff_form]
  cases leaf with
  | list => exact iff_of_false (by simp [entry]) (by simp [readableType, isAddressLike])
  | _ => rfl

/-- Arguments that show their leaves show them in order when they are joined. -/
theorem withoutParentheses_intercalate_typeAt
    (each : ∀ argument ∈ arguments, Text.withoutParentheses (argument.typeAt depth) =
      ",".intercalate (argument.leaves.map entry)) :
    Text.withoutParentheses (",".intercalate (arguments.map (typeAt depth))) =
      ",".intercalate ((arguments.flatMap leaves).map entry) := by
  have nonempty (argument : Argument) : argument.leaves.map entry ≠ [] := by simp [leaves_ne_nil]
  rw [Text.withoutParentheses_intercalate, List.map_map, List.map_flatMap,
    Text.intercalate_flatMap nonempty]
  exact congrArg _ (List.map_congr_left each)

/-- Apart from its parentheses, the type of an argument at any depth shows its leaves in order. -/
theorem withoutParentheses_typeAt (argument : Argument) (depth : Nat) :
    Text.withoutParentheses (argument.typeAt depth) =
      ",".intercalate (argument.leaves.map entry) := by
  induction argument using inductionOn generalizing depth with
  | list items inductionHypothesis =>
    have inside := withoutParentheses_intercalate_typeAt fun item isItem =>
      inductionHypothesis item isItem (depth + 1)
    have shown : ",".intercalate ((items.flatMap leaves).map entry) =
        ",".intercalate ((Argument.list items).leaves.map entry) := by
      cases items with
      | nil => simp [leaves, entry]
      | cons item items => rw [leaves_list (List.cons_ne_nil item items)]
    by_cases even : Even depth
    · rw [typeAt_list_of_even even, inside, shown]
    · rw [typeAt_list_of_not_even even, Text.withoutParentheses_enclosed, inside, shown]
  | _ =>
    obtain ⟨-, noOpening, noClosing, -⟩ := plain_readableType _
    rw [typeAt_of_not_list rfl, Text.withoutParentheses_of_plain noOpening noClosing,
      IsLeaf.leaves_eq (.inl rfl), List.map_singleton, String.intercalate_singleton,
      entry_of_not_list rfl]

/-- Between the commas of rendered types stands what stands for the leaves. -/
theorem pieces_renderTypes (given : arguments ≠ []) :
    Text.pieces (Text.withoutParentheses (renderTypes arguments)) =
      (arguments.flatMap leaves).map entry := by
  have nonempty : (arguments.flatMap leaves).map entry ≠ [] := by
    obtain ⟨argument, member⟩ := List.exists_mem_of_ne_nil arguments given
    rw [ne_eq, List.map_eq_nil_iff, List.flatMap_eq_nil_iff]
    exact fun empty => argument.leaves_ne_nil (empty argument member)
  rw [renderTypes_eq_intercalate,
    withoutParentheses_intercalate_typeAt fun argument _ => argument.withoutParentheses_typeAt 0]
  apply Text.pieces_intercalate nonempty
  intro text member
  obtain ⟨leaf, -, rfl⟩ := List.mem_map.1 member
  exact leaf.comma_not_mem_entry

/-! ## Forms of addresses -/

theorem AddressForm.readableType_eq {place : Address} (form : AddressForm place argument) :
    argument.readableType = "address" :=
  argument.readableType_eq_address_iff_form.2 ⟨place, form⟩

theorem readableType_eq_of_interchanged {left right : Argument}
    (interchanged : Interchanged SameAddress left right) :
    left.readableType = right.readableType := by
  cases interchanged with
  | same => rfl
  | part isAlike =>
    obtain ⟨place, isLeft, isRight⟩ := isAlike
    rw [isLeft.readableType_eq, isRight.readableType_eq]
  | list => rfl
  | map => rfl

theorem list?_eq_none_of_interchanged {left right : Argument}
    (interchanged : Interchanged SameAddress left right) (notList : left.list? = none) :
    right.list? = none := by
  cases interchanged with
  | same => exact notList
  | part isAlike =>
    obtain ⟨place, -, isRight⟩ := isAlike
    exact isRight.list?_eq_none
  | list => cases notList
  | map => rfl

/-- Types do not tell in which form an address was supplied. -/
theorem map_typeAt_eq_of_interchanged {others : List Argument}
    (interchanged : List.Forall₂ (Interchanged SameAddress) arguments others) (depth : Nat) :
    arguments.map (typeAt depth) = others.map (typeAt depth) := by
  induction arguments using rowInduction generalizing others depth with
  | nil =>
    cases interchanged
    rfl
  | leaf argument arguments notList inductionHypothesis =>
    cases interchanged with
    | cons first rest =>
      have otherNotList := list?_eq_none_of_interchanged first notList
      rw [List.map_cons, List.map_cons, typeAt_of_not_list notList,
        typeAt_of_not_list otherNotList, readableType_eq_of_interchanged first,
        inductionHypothesis rest depth]
  | list items arguments itemsHypothesis inductionHypothesis =>
    cases interchanged with
    | cons first rest =>
      rw [List.map_cons, List.map_cons, inductionHypothesis rest depth]
      cases first with
      | same => rfl
      | part isAlike =>
        obtain ⟨place, isList, -⟩ := isAlike
        cases isList
      | list each =>
        have same := itemsHypothesis each (depth + 1)
        by_cases even : Even depth
        · rw [typeAt_list_of_even even, typeAt_list_of_even even, same]
        · rw [typeAt_list_of_not_even even, typeAt_list_of_not_even even, same]

/-- Rendered types show every leaf, and lists by their depth. Arguments are joined by commas, and so
are the items of every list, which is opened at an even depth and put in parentheses at an odd one.
So parentheses are balanced. Between the commas, once the parentheses are taken out, stands in order
the type of each leaf at any depth of lists; only a list without items leaves its place empty. What
is called an address is one, in any of its forms, and it does not matter in which. -/
theorem renderTypes_shows_leaves {arguments : List Argument} (given : arguments ≠ []) :
    let rendered := renderTypes arguments
    let shown := Text.pieces (Text.withoutParentheses rendered)
    let allLeaves := arguments.flatMap leaves
    rendered = ",".intercalate (arguments.map (typeAt 0)) ∧
    Text.Balanced rendered.toList ∧
    shown = allLeaves.map entry ∧
    (∀ leaf, leaf ∈ allLeaves ↔ leaf.Within arguments ∧ leaf.IsLeaf) ∧
    (∀ index : Nat,
      (shown[index]? = some "" ↔ allLeaves[index]? = some (.list [])) ∧
      (shown[index]? = some "address" ↔
        ∃ leaf place, allLeaves[index]? = some leaf ∧ AddressForm place leaf)) ∧
    ∀ others, List.Forall₂ (Interchanged SameAddress) arguments others →
      renderTypes others = rendered := by
  intro rendered shown allLeaves
  have joined : rendered = ",".intercalate (arguments.map (typeAt 0)) :=
    renderTypes_eq_intercalate arguments
  have entries : shown = allLeaves.map entry := pieces_renderTypes given
  refine ⟨joined, ?_, entries, fun leaf => mem_leaves_iff, ?_, ?_⟩
  · rw [joined]
    apply Text.Balanced.intercalate
    intro text member
    obtain ⟨argument, -, rfl⟩ := List.mem_map.1 member
    exact argument.balanced_typeAt 0
  · intro index
    rw [entries, List.getElem?_map, Option.map_eq_some_iff, Option.map_eq_some_iff]
    constructor
    · constructor
      · rintro ⟨leaf, stands, empty⟩
        obtain ⟨-, isLeaf⟩ := mem_leaves_iff.1 (List.mem_of_getElem? stands)
        rw [stands, isLeaf.entry_eq_empty_iff.1 empty]
      · intro stands
        exact ⟨_, stands, rfl⟩
    · simp only [entry_eq_address_iff, exists_and_left]
  · intro others interchanged
    rw [joined, renderTypes_eq_intercalate, map_typeAt_eq_of_interchanged interchanged]

/-- Lists at depths zero to two, some of them without items, around an address in all of its
forms. -/
theorem renderTypes_shows_leaves_of_nested :
    let place : Address := ⟨⟨0xef :: List.replicate 19 0x5a, rfl⟩⟩
    let raw : Argument := .bytes place.bytes.1
    let text : Argument := .text place.checksummed
    let arguments : List Argument := [.text "a",
      .list [.bool true, .list [text, .list [raw, .map []]], .list []], .list [], .address place]
    let others : List Argument := [.text "a",
      .list [.bool true, .list [raw, .list [.address place, .map []]], .list []], .list [], text]
    let rendered := "string,bool,(address,address,map),(),,address"
    arguments ≠ [] ∧ renderTypes arguments = rendered ∧ Text.Balanced rendered.toList ∧
    Text.pieces (Text.withoutParentheses rendered) =
      ["string", "bool", "address", "address", "map", "", "", "address"] ∧
    List.Forall₂ (Interchanged SameAddress) arguments others ∧ renderTypes others = rendered := by
  intro place raw text arguments others rendered
  have given : arguments ≠ [] := List.cons_ne_nil _ _
  obtain ⟨joined, balanced, entries, -, -, alike⟩ := renderTypes_shows_leaves given
  have textWord : text.readableType = "address" := AddressForm.text.readableType_eq
  have rawWord : raw.readableType = "address" := AddressForm.bytes.readableType_eq
  have words : (Argument.text "a").readableType = "string" ∧
      (Argument.bool true).readableType = "bool" ∧ (Argument.map []).readableType = "map" ∧
      (Argument.address place).readableType = "address" := ⟨rfl, rfl, rfl, rfl⟩
  have asText : SameAddress (.address place) text := ⟨place, .address, .text⟩
  have asRaw : SameAddress text raw := ⟨place, .text, .bytes⟩
  have asAddress : SameAddress raw (.address place) := ⟨place, .bytes, .address⟩
  have otherForms : List.Forall₂ (Interchanged SameAddress) arguments others := by
    have innermost : Interchanged SameAddress (.list [raw, .map []])
        (.list [.address place, .map []]) :=
      .list (.cons (.part asAddress) (.cons (.same _) .nil))
    have inner : Interchanged SameAddress (.list [text, .list [raw, .map []]])
        (.list [raw, .list [.address place, .map []]]) :=
      .list (.cons (.part asRaw) (.cons innermost .nil))
    refine .cons (.same _) (.cons (.list ?_) (.cons (.same _) (.cons (.part asText) .nil)))
    exact .cons (.same _) (.cons inner (.cons (.same _) .nil))
  have isRendered : renderTypes arguments = rendered := by
    rw [joined]
    simp [arguments, rendered, typeAt, typesAt, textWord, rawWord, words]
  rw [isRendered] at balanced entries
  refine ⟨given, isRendered, balanced, ?_, otherForms, (alike others otherForms).trans isRendered⟩
  rw [entries]
  simp [arguments, leaves, leavesOf, entry, textWord, rawWord, words]

end ContractAbi.Argument
