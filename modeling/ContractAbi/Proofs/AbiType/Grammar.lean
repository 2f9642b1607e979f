import ContractAbi.AbiType.Grammar
import Mathlib.Data.List.Forall2

/-!
# Reading types

The readers of the grammar keep a budget for their repetitions. `Sizes` and `Members` say without
one what they read, and `TypeSyntax.readTypeWith_eq_some_iff` and
`TypeSyntax.readStem_eq_some_iff` put the two together. No type goes deeper than its reader
(`TypeSyntax.nameDepth_le`).
-/

namespace ContractAbi

namespace TypeSyntax

open Text (Reader skipBlanks)

/-! ## Array sizes -/

/-- The size that digits in brackets stand for. -/
def sizeOf? (digits : List Char) : Option (Option ArrayLength) :=
  if digits = [] then some none
  else ((Text.decimal? digits).bind ArrayLength.ofNat?).map some

/-- What is read as a size is a run of digits in brackets. -/
theorem exists_digits_of_readSize {text rest : List Char} {size : Option ArrayLength}
    (read : readSize text = some (size, rest)) :
    ∃ digits, (∀ char ∈ digits, char.isDigit = true) ∧ sizeOf? digits = some size ∧
      text = '[' :: (digits ++ ']' :: rest) := by
  unfold readSize at read
  split at read
  · next opened text =>
    have parts := List.takeWhile_append_dropWhile (p := Char.isDigit) (l := text)
    have areDigits : ∀ char ∈ text.takeWhile Char.isDigit, char.isDigit = true :=
      List.all_eq_true.1 List.all_takeWhile
    refine ⟨text.takeWhile Char.isDigit, areDigits, ?_⟩
    split at read
    · next behind noDigits closed =>
      cases read
      rw [noDigits, closed] at parts
      rw [noDigits, ← parts]
      exact ⟨rfl, rfl⟩
    · next behind closed someDigits =>
      rw [closed] at parts
      split at read
      · next length spelled =>
        cases read
        have nonempty : text.takeWhile Char.isDigit ≠ [] := someDigits
        exact ⟨by simp [sizeOf?, nonempty, spelled], by rw [parts]⟩
      · cases read
    · cases read
  · cases read

/-- A run of digits in brackets is read as the size that it stands for. -/
theorem readSize_digits {digits rest : List Char} {size : Option ArrayLength}
    (areDigits : ∀ char ∈ digits, char.isDigit = true) (spelled : sizeOf? digits = some size) :
    readSize ('[' :: (digits ++ ']' :: rest)) = some (size, rest) := by
  have front : (digits ++ ']' :: rest).takeWhile Char.isDigit = digits := by
    rw [List.takeWhile_append_of_pos areDigits]
    simp
  have back : (digits ++ ']' :: rest).dropWhile Char.isDigit = ']' :: rest := by
    rw [List.dropWhile_append_of_pos areDigits]
    simp
  simp only [readSize, front, back]
  unfold sizeOf? at spelled
  cases digits with
  | nil =>
    obtain rfl := Option.some.inj spelled
    rfl
  | cons first others =>
    simp only [reduceCtorEq, ↓reduceIte, Option.map_eq_some_iff] at spelled
    obtain ⟨length, counted, rfl⟩ := spelled
    simp only [counted]

theorem readSize_eq_some_iff {text rest : List Char} {size : Option ArrayLength} :
    readSize text = some (size, rest) ↔
      ∃ digits, (∀ char ∈ digits, char.isDigit = true) ∧ sizeOf? digits = some size ∧
        text = '[' :: (digits ++ ']' :: rest) := by
  refine ⟨exists_digits_of_readSize, ?_⟩
  rintro ⟨digits, areDigits, spelled, rfl⟩
  exact readSize_digits areDigits spelled

/-- The array sizes at the front of a text, up to where no size follows. -/
inductive Sizes : List Char → List (Option ArrayLength) → List Char → Prop where
  | stop {text} (unread : readSize text = none) : Sizes text [] text
  | next {text size after sizes rest} (read : readSize text = some (size, after))
      (others : Sizes after sizes rest) : Sizes text (size :: sizes) rest

theorem length_lt_of_readSize {text rest : List Char} {size : Option ArrayLength}
    (read : readSize text = some (size, rest)) : rest.length < text.length := by
  obtain ⟨digits, -, -, rfl⟩ := readSize_eq_some_iff.1 read
  simp only [List.length_cons, List.length_append]
  omega

theorem Sizes.length_le {text rest : List Char} {sizes : List (Option ArrayLength)}
    (read : Sizes text sizes rest) : rest.length ≤ text.length := by
  induction read with
  | stop => exact Nat.le_refl _
  | next read _ inductionHypothesis =>
    have shorter := length_lt_of_readSize read
    omega

/-- With a budget of one size for each character all sizes are read. -/
theorem Sizes.readSizes_eq {text rest : List Char} {sizes : List (Option ArrayLength)}
    (read : Sizes text sizes rest) {fuel : Nat} (enough : text.length ≤ fuel)
    (element : TypeSyntax) :
    readSizes fuel element text = (sizes.foldl sized element, rest) := by
  induction read generalizing fuel element with
  | stop unread => cases fuel <;> simp [readSizes, unread]
  | next read _ inductionHypothesis =>
    have shorter := length_lt_of_readSize read
    cases fuel with
    | zero => omega
    | succ fuel =>
      simp only [readSizes, read, List.foldl_cons]
      exact inductionHypothesis (by omega) _

theorem exists_sizes (text : List Char) : ∃ sizes rest, Sizes text sizes rest := by
  induction length : text.length using Nat.strongRecOn generalizing text with
  | ind _ inductionHypothesis =>
    cases found : readSize text with
    | none => exact ⟨[], text, .stop found⟩
    | some read =>
      have shorter := length_lt_of_readSize found
      obtain ⟨sizes, rest, others⟩ := inductionHypothesis _ (length ▸ shorter) read.2 rfl
      exact ⟨_, rest, .next found others⟩

/-! ## Members -/

/-- Whether a character can open a type. -/
def opensType (char : Char) : Bool := char = '(' || isNameStart char

/-- A reader whose types open with a parenthesis or a name, and which puts nothing back. -/
structure Regular (member : Reader TypeSyntax) : Prop where
  opens {text rest : List Char} {type : TypeSyntax} :
    member text = some (type, rest) → ∃ char others, text = char :: others ∧ opensType char = true
  length_le {text rest : List Char} {type : TypeSyntax} :
    member text = some (type, rest) → rest.length ≤ text.length

/-- The text behind a comma at its front, if there is one. -/
def skipComma : List Char → List Char
  | ',' :: rest => rest
  | text => text

/-- The rest of a text behind the closing parenthesis of a tuple. -/
def Closes (text rest : List Char) : Prop := skipBlanks (skipComma text) = ')' :: rest

/-- The members behind the first one, up to the closing parenthesis. -/
inductive MoreMembers (member : Reader TypeSyntax) :
    List Char → List TypeSyntax → List Char → Prop where
  | close {text rest} (closes : Closes text rest) : MoreMembers member text [] rest
  | next {text first after others rest} (read : member (skipBlanks text) = some (first, after))
      (more : MoreMembers member after others rest) :
      MoreMembers member (',' :: text) (first :: others) rest

/-- The members of a tuple, up to the closing parenthesis. -/
inductive Members (member : Reader TypeSyntax) :
    List Char → List TypeSyntax → List Char → Prop where
  | none {text rest} (closes : skipBlanks text = ')' :: rest) : Members member text [] rest
  | some {text first after others rest} (read : member (skipBlanks text) = some (first, after))
      (more : MoreMembers member after others rest) : Members member text (first :: others) rest

variable {member : Reader TypeSyntax}

theorem Regular.none_of_parenthesis (regular : Regular member) (rest : List Char) :
    member (')' :: rest) = none := by
  rw [Option.eq_none_iff_forall_ne_some]
  rintro ⟨type, behind⟩ read
  obtain ⟨char, others, equal, opens⟩ := regular.opens read
  obtain ⟨rfl, -⟩ := List.cons.inj equal
  cases opens

theorem length_skipBlanks_le (text : List Char) : (skipBlanks text).length ≤ text.length :=
  (List.dropWhile_suffix _).length_le

/-- With a budget of one member for each character all members are read. -/
theorem MoreMembers.readMoreMembers_eq (regular : Regular member) {text rest : List Char}
    {others : List TypeSyntax} (read : MoreMembers member text others rest) {fuel : Nat}
    (enough : text.length ≤ fuel) :
    ∃ beyond, readMoreMembers member fuel text = (others, beyond) ∧ Closes beyond rest := by
  induction read generalizing fuel with
  | @close text rest closes =>
    refine ⟨text, ?_, closes⟩
    unfold readMoreMembers
    split
    · next behind =>
      have closed : skipBlanks behind = ')' :: rest := closes
      simp only [closed, regular.none_of_parenthesis]
    · rfl
  | @next text first after others rest read _ inductionHypothesis =>
    have shorter := regular.length_le read
    have blanks := length_skipBlanks_le text
    simp only [List.length_cons] at enough
    cases fuel with
    | zero => omega
    | succ fuel =>
      have enoughBehind : after.length ≤ fuel := by omega
      obtain ⟨beyond, readOthers, closes⟩ := inductionHypothesis enoughBehind
      exact ⟨beyond, by simp only [readMoreMembers, read, readOthers], closes⟩

/-- What is read as further members, whatever the budget, stands there when the tuple closes
behind it. -/
theorem moreMembers_of_readMoreMembers {fuel : Nat} {text beyond rest : List Char}
    {others : List TypeSyntax} (read : readMoreMembers member fuel text = (others, beyond))
    (closes : Closes beyond rest) : MoreMembers member text others rest := by
  induction fuel generalizing text others with
  | zero =>
    obtain ⟨rfl, rfl⟩ := Prod.mk.inj read
    exact .close closes
  | succ fuel inductionHypothesis =>
    unfold readMoreMembers at read
    split at read
    · next budget behind sameBudget =>
      obtain rfl := Nat.succ.inj sameBudget
      split at read
      · obtain ⟨rfl, rfl⟩ := Prod.mk.inj read
        exact .close closes
      · next first after readFirst =>
        obtain ⟨rfl, rfl⟩ := Prod.mk.inj read
        exact .next readFirst (inductionHypothesis rfl)
    · obtain ⟨rfl, rfl⟩ := Prod.mk.inj read
      exact .close closes

/-- What is read as members stands in front of a closing parenthesis. -/
theorem members_of_readMembers {text rest : List Char} {members : List TypeSyntax}
    (read : readMembers member text = some (members, rest)) : Members member text members rest := by
  unfold readMembers at read
  split at read
  · next behind closes =>
    obtain ⟨rfl, rfl⟩ := Prod.mk.inj (Option.some.inj read)
    exact .none closes
  · split at read
    · cases read
    · next first after readFirst =>
      cases readOthers : readMoreMembers member after.length after with
      | mk others beyond =>
        simp only [readOthers] at read
        split at read
        · next behind closes =>
          obtain ⟨rfl, rfl⟩ := Prod.mk.inj (Option.some.inj read)
          exact .some readFirst (moreMembers_of_readMoreMembers readOthers closes)
        · cases read

/-- Members in front of a closing parenthesis are all read. -/
theorem readMembers_of_members (regular : Regular member) {text rest : List Char}
    {members : List TypeSyntax} (read : Members member text members rest) :
    readMembers member text = some (members, rest) := by
  cases read with
  | none closes => simp [readMembers, closes]
  | some read more =>
    obtain ⟨beyond, readOthers, closes⟩ := more.readMoreMembers_eq regular (Nat.le_refl _)
    unfold readMembers
    split
    · next closed =>
      rw [closed, regular.none_of_parenthesis] at read
      cases read
    · simp only [read, readOthers]
      -- The comma is skipped here as `skipComma` does it.
      split
      · next found =>
        have same : _ = ')' :: rest := found.symm.trans closes
        rw [(List.cons.inj same).2]
      · next notClosed => exact absurd closes (notClosed rest)

theorem readMembers_eq_some_iff (regular : Regular member) {text rest : List Char}
    {members : List TypeSyntax} :
    readMembers member text = some (members, rest) ↔ Members member text members rest :=
  ⟨members_of_readMembers, readMembers_of_members regular⟩

theorem MoreMembers.length_le (regular : Regular member) {text rest : List Char}
    {others : List TypeSyntax} (read : MoreMembers member text others rest) :
    rest.length ≤ text.length := by
  induction read with
  | @close text rest closes =>
    have comma : (skipComma text).length ≤ text.length := by
      unfold skipComma
      split <;> simp
    have blanks := length_skipBlanks_le (skipComma text)
    rw [show skipBlanks (skipComma text) = ')' :: rest from closes, List.length_cons] at blanks
    omega
  | @next text _ _ _ _ read _ inductionHypothesis =>
    have shorter := regular.length_le read
    have blanks := length_skipBlanks_le text
    rw [List.length_cons]
    omega

theorem Members.length_le (regular : Regular member) {text rest : List Char}
    {members : List TypeSyntax} (read : Members member text members rest) :
    rest.length ≤ text.length := by
  have blanks := length_skipBlanks_le text
  cases read with
  | none closes =>
    rw [closes, List.length_cons] at blanks
    omega
  | some read more =>
    have shorter := regular.length_le read
    have others := more.length_le regular
    omega

theorem MoreMembers.exists_read {text rest : List Char} {others : List TypeSyntax}
    (read : MoreMembers member text others rest) :
    ∀ other ∈ others, ∃ text rest, member text = .some (other, rest) := by
  induction read with
  | close => simp
  | next read _ inductionHypothesis =>
    exact List.forall_mem_cons.2 ⟨⟨_, _, read⟩, inductionHypothesis⟩

/-- Each member of a tuple was read. -/
theorem Members.exists_read {text rest : List Char} {members : List TypeSyntax}
    (read : Members member text members rest) :
    ∀ other ∈ members, ∃ text rest, member text = .some (other, rest) := by
  cases read with
  | none => simp
  | some read others => exact List.forall_mem_cons.2 ⟨⟨_, _, read⟩, others.exists_read⟩

/-! ## Types -/

/-- What stands in front of the array sizes of a type. -/
theorem readStem_eq_some_iff (regular : Regular member) {text after : List Char}
    {stem : TypeSyntax} :
    readStem member text = some (stem, after) ↔
      (openTuple? text = none ∧ readRoot text = some (stem, after)) ∨
      ∃ inside members, openTuple? text = some inside ∧ Members member inside members after ∧
        stem = .tuple members := by
  unfold readStem
  cases openTuple? text with
  | none => simp
  | some inside =>
    simp only [reduceCtorEq, false_and, false_or, Option.some.injEq, exists_and_left,
      exists_eq_left', ← readMembers_eq_some_iff regular]
    cases readMembers member inside with
    | none => simp
    | some read => grind

/-- A type is a stem with the array sizes behind it. -/
theorem readTypeWith_eq_some_iff {text rest : List Char} {type : TypeSyntax} :
    readTypeWith member text = some (type, rest) ↔
      ∃ stem after sizes, readStem member text = some (stem, after) ∧ Sizes after sizes rest ∧
        type = sizes.foldl sized stem := by
  unfold readTypeWith
  cases readStem member text with
  | none => simp
  | some read =>
    obtain ⟨stem, after⟩ := read
    obtain ⟨sizes, beyond, found⟩ := exists_sizes after
    have readFound := found.readSizes_eq (Nat.le_refl _) stem
    simp only [readFound, Option.some.injEq, Prod.mk.injEq]
    constructor
    · rintro ⟨rfl, rfl⟩
      exact ⟨stem, after, sizes, ⟨rfl, rfl⟩, found, rfl⟩
    · rintro ⟨_, _, others, ⟨rfl, rfl⟩, read, rfl⟩
      exact Prod.mk.inj (readFound.symm.trans (read.readSizes_eq (Nat.le_refl _) stem))

theorem readName_opens {text name rest : List Char} (read : readName text = some (name, rest)) :
    ∃ char others, text = char :: others ∧ isNameStart char = true ∧
      rest.length ≤ others.length := by
  cases text with
  | nil => cases read
  | cons char others =>
    simp only [readName] at read
    split at read
    · next starts =>
      cases read
      exact ⟨char, others, rfl, starts, (List.dropWhile_suffix _).length_le⟩
    · cases read

/-- A qualified or plain name opens with a character that can open a name. -/
theorem readRoot_opens {text rest : List Char} {type : TypeSyntax}
    (read : readRoot text = some (type, rest)) :
    ∃ char others, text = char :: others ∧ isNameStart char = true ∧
      rest.length ≤ others.length := by
  unfold readRoot at read
  split at read
  · cases read
  · next first behind found =>
    obtain ⟨char, others, rfl, starts, shorter⟩ := readName_opens found
    rw [List.length_cons] at shorter
    refine ⟨char, others, rfl, starts, ?_⟩
    split at read
    · next second beyond readSecond =>
      obtain ⟨_, _, rfl, -, evenShorter⟩ := readName_opens readSecond
      cases read
      rw [List.length_cons] at shorter
      omega
    · cases read
      omega
  · next found =>
    cases read
    exact readName_opens found

theorem openTuple?_eq_some_iff {text inside : List Char} :
    openTuple? text = some inside ↔
      ∃ front ∈ ["(".toList, "tuple(".toList], text = front ++ inside := by
  unfold openTuple?
  split <;> simp_all [eq_comm]

/-- A tuple opens with a character that can open a type. -/
theorem openTuple?_opens {text inside : List Char} (opened : openTuple? text = some inside) :
    ∃ char others, text = char :: others ∧ opensType char = true ∧
      inside.length ≤ others.length := by
  obtain ⟨front, isFront, rfl⟩ := openTuple?_eq_some_iff.1 opened
  simp only [List.mem_cons, List.not_mem_nil, or_false] at isFront
  rcases isFront with rfl | rfl
  · exact ⟨'(', inside, rfl, rfl, Nat.le_refl _⟩
  · exact ⟨'t', "uple(".toList ++ inside, rfl, rfl, by simp; omega⟩

/-- A reader of types is regular when that of the members is. -/
theorem Regular.readTypeWith (regular : Regular member) :
    Regular (TypeSyntax.readTypeWith member) := by
  have opens {text rest : List Char} {type : TypeSyntax}
      (read : TypeSyntax.readTypeWith member text = some (type, rest)) :
      ∃ char others, text = char :: others ∧ opensType char = true ∧
        rest.length ≤ others.length := by
    obtain ⟨stem, after, sizes, readStem, readSizes, -⟩ := readTypeWith_eq_some_iff.1 read
    have sizesLength := readSizes.length_le
    rcases (readStem_eq_some_iff regular).1 readStem with
      ⟨-, readRoot⟩ | ⟨inside, _, opened, members, -⟩
    · obtain ⟨char, others, rfl, starts, shorter⟩ := readRoot_opens readRoot
      exact ⟨char, others, rfl, by simp [opensType, starts], by omega⟩
    · obtain ⟨char, others, rfl, opens, shorter⟩ := openTuple?_opens opened
      have membersLength := members.length_le regular
      exact ⟨char, others, rfl, opens, by omega⟩
  constructor
  · intro text rest type read
    obtain ⟨char, others, equal, starts, -⟩ := opens read
    exact ⟨char, others, equal, starts⟩
  · intro text rest type read
    obtain ⟨char, others, rfl, -, shorter⟩ := opens read
    rw [List.length_cons]
    omega

theorem regular_none : Regular fun _ => none where
  opens read := by cases read
  length_le read := by cases read

/-- The reader of the members of a type at the given depth. -/
def readBelow : (depth : Nat) → Reader TypeSyntax
  | 0 => fun _ => none
  | depth + 1 => readType depth

theorem readType_eq (depth : Nat) : readType depth = readTypeWith (readBelow depth) := by
  cases depth <;> rfl

theorem regular_readType (depth : Nat) : Regular (readType depth) := by
  induction depth with
  | zero => exact regular_none.readTypeWith
  | succ depth inductionHypothesis => exact inductionHypothesis.readTypeWith

theorem regular_readBelow (depth : Nat) : Regular (readBelow depth) := by
  cases depth with
  | zero => exact regular_none
  | succ depth => exact regular_readType depth

/-! ## Depth -/

mutual
/-- The greatest number of tuples that stand around a name in the type. -/
def nameDepth : TypeSyntax → Nat
  | .array element | .fixedArray element _ => element.nameDepth
  | .tuple members => deepestNames members
  | _ => 0

/-- The greatest number of tuples around a name in a tuple of the types. -/
def deepestNames : List TypeSyntax → Nat
  | [] => 0
  | type :: types => max (type.nameDepth + 1) (deepestNames types)
end

theorem deepestNames_le_iff {types : List TypeSyntax} {bound : Nat} :
    deepestNames types ≤ bound ↔ ∀ type ∈ types, type.nameDepth < bound := by
  induction types with
  | nil => simp [deepestNames]
  | cons first others inductionHypothesis =>
    simp only [deepestNames, Nat.max_le, inductionHypothesis, List.forall_mem_cons,
      Nat.add_one_le_iff]

/-- Array sizes put no tuples around a type. -/
theorem nameDepth_foldl_sized (sizes : List (Option ArrayLength)) (stem : TypeSyntax) :
    (sizes.foldl sized stem).nameDepth = stem.nameDepth := by
  induction sizes generalizing stem with
  | nil => rfl
  | cons size sizes inductionHypothesis =>
    rw [List.foldl_cons, inductionHypothesis]
    cases size <;> simp [sized, nameDepth]

/-- Names have no depth. -/
theorem nameDepth_of_readRoot {text rest : List Char} {type : TypeSyntax}
    (read : readRoot text = some (type, rest)) : type.nameDepth = 0 := by
  unfold readRoot at read
  split at read
  · cases read
  · split at read <;> cases read <;> rfl
  · cases read
    rfl

theorem nameDepth_le_of_below {depth : Nat}
    (below : ∀ {text rest type}, readBelow depth text = some (type, rest) → type.nameDepth < depth)
    {text rest : List Char} {type : TypeSyntax}
    (read : readType depth text = some (type, rest)) : type.nameDepth ≤ depth := by
  rw [readType_eq] at read
  obtain ⟨stem, after, sizes, readStem, -, rfl⟩ := readTypeWith_eq_some_iff.1 read
  rw [nameDepth_foldl_sized]
  rcases (readStem_eq_some_iff (regular_readBelow depth)).1 readStem with
    ⟨-, readRoot⟩ | ⟨inside, members, -, readMembers, rfl⟩
  · rw [nameDepth_of_readRoot readRoot]
    exact Nat.zero_le _
  · refine deepestNames_le_iff.2 ?_
    intro other isMember
    obtain ⟨_, _, read⟩ := readMembers.exists_read other isMember
    exact below read

/-- No type goes deeper than its reader. -/
theorem nameDepth_le {depth : Nat} {text rest : List Char} {type : TypeSyntax}
    (read : readType depth text = some (type, rest)) : type.nameDepth ≤ depth := by
  induction depth generalizing text rest type with
  | zero => exact nameDepth_le_of_below (fun read => by cases read) read
  | succ depth inductionHypothesis =>
    exact nameDepth_le_of_below (fun read => Nat.lt_succ_of_le (inductionHypothesis read)) read

end TypeSyntax

namespace AbiType

theorem parse?_eq_some_iff {text : String} {type : AbiType} :
    parse? text = some type ↔ parse text = .ok type := by
  rw [parse?]
  cases parse text <;> simp [Except.toOption]

end AbiType

end ContractAbi
