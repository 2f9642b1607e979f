import ContractAbi.Proofs.AbiType.Grammar

/-!
# Types inside other texts

A type is read the same way wherever it stands: in front of a comma or a closing parenthesis, and
at any depth that its tuples leave room for (`TypeSyntax.readType_append`). So a text is read in one
way only (`TypeSyntax.readType_unique`), and texts between commas are read as the members of a
tuple (`TypeSyntax.members_intercalate`).
-/

namespace ContractAbi

namespace TypeSyntax

open Text (Reader skipBlanks)

/-- What may follow a member of a tuple: nothing, a comma or a closing parenthesis. -/
def Closing (more : List Char) : Prop :=
  ∀ char rest, more = char :: rest → char = ',' ∨ char = ')'

variable {more : List Char}

theorem closing_nil : Closing [] := by
  intro char rest equal
  cases equal

theorem closing_comma (rest : List Char) : Closing (',' :: rest) := by
  intro char others equal
  exact .inl (List.cons.inj equal).1.symm

theorem closing_parenthesis (rest : List Char) : Closing (')' :: rest) := by
  intro char others equal
  exact .inr (List.cons.inj equal).1.symm

/-- What holds no comma and no parenthesis does not reach into a closing text. -/
theorem prefix_of_append (closing : Closing more) {text front rest : List Char}
    (free : ∀ char ∈ front, char ≠ ',' ∧ char ≠ ')') (equal : text ++ more = front ++ rest) :
    ∃ behind, text = front ++ behind := by
  rcases List.append_eq_append_iff.1 equal with ⟨missing, isFront, isMore⟩ | ⟨behind, isText, -⟩
  · cases missing with
    | nil => exact ⟨[], by simpa [eq_comm] using isFront⟩
    | cons char others =>
      obtain ⟨noComma, noParenthesis⟩ := free char (by simp [isFront])
      rcases closing char _ isMore with comma | parenthesis
      · exact absurd comma noComma
      · exact absurd parenthesis noParenthesis
  · exact ⟨behind, isText⟩

/-! ## Names -/

/-- A run of characters ends where a closing text starts. -/
theorem span_append (keep : Char → Bool) (commaEnds : keep ',' = false)
    (parenthesisEnds : keep ')' = false) (closing : Closing more) (text : List Char) :
    (text ++ more).takeWhile keep = text.takeWhile keep ∧
      (text ++ more).dropWhile keep = text.dropWhile keep ++ more := by
  induction text with
  | nil =>
    cases more with
    | nil => simp
    | cons char rest =>
      rcases closing char rest rfl with rfl | rfl
      · simp [commaEnds]
      · simp [parenthesisEnds]
  | cons char text inductionHypothesis =>
    cases kept : keep char <;> simp [kept, inductionHypothesis]

/-- A name is read the same way in front of a closing text. -/
theorem readName_append (closing : Closing more) (text : List Char) :
    readName (text ++ more) = (readName text).map fun read => (read.1, read.2 ++ more) := by
  cases text with
  | nil =>
    cases more with
    | nil => rfl
    | cons char rest => rcases closing char rest rfl with rfl | rfl <;> rfl
  | cons start text =>
    have parts := span_append isNameRest rfl rfl closing text
    cases starts : isNameStart start <;> simp [readName, starts, parts]

/-- A qualified or plain name is read the same way in front of a closing text. -/
theorem readRoot_append (closing : Closing more) {text rest : List Char} {type : TypeSyntax}
    (read : readRoot text = some (type, rest)) :
    readRoot (text ++ more) = some (type, rest ++ more) := by
  unfold readRoot at read ⊢
  rw [readName_append closing]
  split at read
  · cases read
  · next first behind found =>
    simp only [found, Option.map_some, List.cons_append, readName_append closing]
    split at read
    · next second others qualified =>
      cases read
      simp [qualified]
    · next unqualified =>
      cases read
      simp [unqualified]
  · next first behind notQualified found =>
    cases read
    simp only [found, Option.map_some]
    split
    · next equal => simp at equal
    · next other dotted equal =>
      have same := (Prod.mk.inj (Option.some.inj equal)).2
      cases rest with
      | nil => rcases closing '.' dotted same with impossible | impossible <;> cases impossible
      | cons char others =>
        obtain ⟨rfl, -⟩ := List.cons.inj same
        exact absurd rfl (notQualified others)
    · next equal =>
      obtain ⟨rfl, rfl⟩ := Prod.mk.inj (Option.some.inj equal)
      rfl

/-! ## Array sizes -/

/-- A size is read the same way whatever follows it. -/
theorem readSize_append {text rest : List Char} {size : Option ArrayLength} (more : List Char)
    (read : readSize text = some (size, rest)) :
    readSize (text ++ more) = some (size, rest ++ more) := by
  obtain ⟨digits, areDigits, spelled, rfl⟩ := readSize_eq_some_iff.1 read
  exact readSize_eq_some_iff.2 ⟨digits, areDigits, spelled, by simp⟩

/-- A closing text makes no size out of a text that opens none. -/
theorem readSize_append_eq_none (closing : Closing more) {text : List Char}
    (unread : readSize text = none) : readSize (text ++ more) = none := by
  rw [Option.eq_none_iff_forall_ne_some]
  rintro ⟨size, rest⟩ read
  obtain ⟨digits, areDigits, spelled, equal⟩ := readSize_eq_some_iff.1 read
  have split : text ++ more = ('[' :: digits ++ [']']) ++ rest := by simp [equal]
  have free : ∀ char ∈ '[' :: digits ++ [']'], char ≠ ',' ∧ char ≠ ')' := by
    intro char member
    have place : char = '[' ∨ char ∈ digits ∨ char = ']' := by simpa using member
    rcases place with rfl | inside | rfl
    · decide
    · have isDigit := areDigits char inside
      constructor <;> rintro rfl <;> exact absurd isDigit (by decide)
    · decide
  obtain ⟨behind, isText⟩ := prefix_of_append closing free split
  have readInText : readSize text = some (size, behind) :=
    readSize_eq_some_iff.2 ⟨digits, areDigits, spelled, by simp [isText]⟩
  rw [readInText] at unread
  cases unread

/-- Sizes are read the same way in front of a closing text. -/
theorem Sizes.append (closing : Closing more) {text rest : List Char}
    {sizes : List (Option ArrayLength)} (read : Sizes text sizes rest) :
    Sizes (text ++ more) sizes (rest ++ more) := by
  induction read with
  | stop unread => exact .stop (readSize_append_eq_none closing unread)
  | next read _ inductionHypothesis => exact .next (readSize_append more read) inductionHypothesis

/-! ## Tuples -/

/-- A tuple is opened the same way whatever follows it. -/
theorem openTuple?_append {text inside : List Char} (more : List Char)
    (opened : openTuple? text = some inside) :
    openTuple? (text ++ more) = some (inside ++ more) := by
  obtain ⟨front, isFront, rfl⟩ := openTuple?_eq_some_iff.1 opened
  exact openTuple?_eq_some_iff.2 ⟨front, isFront, List.append_assoc _ _ _⟩

/-- A closing text opens no tuple. -/
theorem openTuple?_append_eq_none (closing : Closing more) {text : List Char}
    (unopened : openTuple? text = none) : openTuple? (text ++ more) = none := by
  rw [Option.eq_none_iff_forall_ne_some]
  intro inside opened
  obtain ⟨front, isFront, equal⟩ := openTuple?_eq_some_iff.1 opened
  have free : ∀ char ∈ front, char ≠ ',' ∧ char ≠ ')' := by
    simp only [List.mem_cons, List.not_mem_nil, or_false] at isFront
    rcases isFront with rfl | rfl <;> simp
  obtain ⟨behind, isText⟩ := prefix_of_append closing free equal
  rw [openTuple?_eq_some_iff.2 ⟨front, isFront, isText⟩] at unopened
  cases unopened

theorem skipBlanks_append {text behind : List Char} {char : Char} (more : List Char)
    (skipped : skipBlanks text = char :: behind) :
    skipBlanks (text ++ more) = char :: (behind ++ more) := by
  unfold skipBlanks at skipped ⊢
  rw [List.dropWhile_append, skipped]
  rfl

theorem Closes.append {text rest : List Char} (closes : Closes text rest) (more : List Char) :
    Closes (text ++ more) (rest ++ more) := by
  unfold Closes at closes ⊢
  cases text with
  | nil => cases closes
  | cons char text =>
    have shifted : skipComma (char :: text ++ more) = skipComma (char :: text) ++ more := by
      unfold skipComma
      grind
    rw [shifted]
    exact skipBlanks_append more closes

/-- Another reader reads types of less than the given depth the same way, and also in front of a
closing text. -/
structure Extends (bound : Nat) (member wider : Reader TypeSyntax) : Prop where
  append {text rest more : List Char} {type : TypeSyntax} :
    member text = some (type, rest) → type.nameDepth < bound → Closing more →
      wider (text ++ more) = some (type, rest ++ more)

variable {member wider : Reader TypeSyntax} {bound : Nat}

theorem MoreMembers.append (regular : Regular member) (extension : Extends bound member wider)
    (closing : Closing more) {text rest : List Char} {others : List TypeSyntax}
    (read : MoreMembers member text others rest)
    (shallow : ∀ other ∈ others, other.nameDepth < bound) :
    MoreMembers wider (text ++ more) others (rest ++ more) := by
  induction read with
  | close closes => exact .close (closes.append more)
  | @next text first after others rest read _ inductionHypothesis =>
    obtain ⟨firstShallow, othersShallow⟩ := List.forall_mem_cons.1 shallow
    obtain ⟨char, behind, opened, -⟩ := regular.opens read
    have readWider := extension.append read firstShallow closing
    rw [opened, List.cons_append, ← skipBlanks_append more opened] at readWider
    exact .next readWider (inductionHypothesis othersShallow)

theorem Members.append (regular : Regular member) (extension : Extends bound member wider)
    (closing : Closing more) {text rest : List Char} {members : List TypeSyntax}
    (read : Members member text members rest)
    (shallow : ∀ other ∈ members, other.nameDepth < bound) :
    Members wider (text ++ more) members (rest ++ more) := by
  cases read with
  | none closes => exact .none (skipBlanks_append more closes)
  | some read others =>
    obtain ⟨firstShallow, othersShallow⟩ := List.forall_mem_cons.1 shallow
    obtain ⟨char, behind, opened, -⟩ := regular.opens read
    have readWider := extension.append read firstShallow closing
    rw [opened, List.cons_append, ← skipBlanks_append more opened] at readWider
    exact .some readWider (others.append regular extension closing othersShallow)

/-! ## Types -/

/-- A type whose members another reader reads the same way is read the same way. -/
theorem Extends.readTypeWith (regular : Regular member) (regularWider : Regular wider)
    (extension : Extends bound member wider) :
    Extends (bound + 1) (TypeSyntax.readTypeWith member) (TypeSyntax.readTypeWith wider) := by
  constructor
  intro text rest more type read shallow closing
  obtain ⟨stem, after, sizes, readStem, readSizes, rfl⟩ := readTypeWith_eq_some_iff.1 read
  rw [nameDepth_foldl_sized] at shallow
  refine readTypeWith_eq_some_iff.2 ⟨stem, after ++ more, sizes, ?_, readSizes.append closing, rfl⟩
  rw [readStem_eq_some_iff regularWider]
  rcases (readStem_eq_some_iff regular).1 readStem with
    ⟨unopened, readRoot⟩ | ⟨inside, members, opened, readMembers, rfl⟩
  · exact .inl ⟨openTuple?_append_eq_none closing unopened, readRoot_append closing readRoot⟩
  · have membersShallow : ∀ other ∈ members, other.nameDepth < bound := by
      intro other isMember
      exact deepestNames_le_iff.1 (Nat.le_of_lt_succ shallow) other isMember
    exact .inr ⟨inside ++ more, members, openTuple?_append more opened,
      readMembers.append regular extension closing membersShallow, rfl⟩

/-- Every reader extends another one that goes no deeper. -/
theorem extends_readType (depth wideDepth : Nat) :
    Extends (wideDepth + 1) (readType depth) (readType wideDepth) := by
  have below : Extends wideDepth (readBelow depth) (readBelow wideDepth) := by
    induction wideDepth generalizing depth with
    | zero => exact ⟨fun _ shallow => absurd shallow (Nat.not_lt_zero _)⟩
    | succ wideDepth inductionHypothesis =>
      cases depth with
      | zero => exact ⟨fun read => by cases read⟩
      | succ depth =>
        rw [readBelow, readBelow, readType_eq, readType_eq]
        exact (inductionHypothesis depth).readTypeWith (regular_readBelow _) (regular_readBelow _)
  rw [readType_eq, readType_eq]
  exact below.readTypeWith (regular_readBelow _) (regular_readBelow _)

/-- A type is read the same way in front of a closing text, and at every depth that leaves room for
its tuples. -/
theorem readType_append {depth wideDepth : Nat} {text rest : List Char} {type : TypeSyntax}
    (read : readType depth text = some (type, rest)) (enough : type.nameDepth ≤ wideDepth)
    (closing : Closing more) :
    readType wideDepth (text ++ more) = some (type, rest ++ more) :=
  (extends_readType depth wideDepth).append read (Nat.lt_succ_of_le enough) closing

/-- A text is read in one way only, whatever depth is allowed. -/
theorem readType_unique {depth otherDepth : Nat} {text rest otherRest : List Char}
    {type other : TypeSyntax} (read : readType depth text = some (type, rest))
    (readOther : readType otherDepth text = some (other, otherRest)) :
    type = other ∧ rest = otherRest := by
  have wide : type.nameDepth ≤ max depth otherDepth :=
    Nat.le_trans (nameDepth_le read) (Nat.le_max_left _ _)
  have wideOther : other.nameDepth ≤ max depth otherDepth :=
    Nat.le_trans (nameDepth_le readOther) (Nat.le_max_right _ _)
  have same := (readType_append read wide closing_nil).symm.trans
    (readType_append readOther wideOther closing_nil)
  simpa using same

/-! ## Written tuples -/

/-- A text is read as a type wherever it stands. -/
def ReadsAs (member : Reader TypeSyntax) (text : List Char) (type : TypeSyntax) : Prop :=
  ∀ {more : List Char}, Closing more → member (text ++ more) = some (type, more)

/-- Nothing blank stands in front of a type. -/
theorem Regular.read_skipBlanks (regular : Regular member) {text rest : List Char}
    {type : TypeSyntax} (read : member text = some (type, rest)) :
    member (skipBlanks text) = some (type, rest) := by
  obtain ⟨char, others, rfl, opens⟩ := regular.opens read
  have solid : Text.isBlank char = false := by
    rw [Bool.eq_false_iff]
    intro blank
    simp only [Text.isBlank, Bool.or_eq_true, decide_eq_true_eq] at blank
    rcases blank with rfl | rfl <;> cases opens
  simpa [skipBlanks, solid] using read

theorem closing_flatMap (texts : List (List Char)) (rest : List Char) :
    Closing (texts.flatMap (fun text => ',' :: text) ++ ')' :: rest) := by
  cases texts with
  | nil => exact closing_parenthesis rest
  | cons text texts => exact closing_comma _

/-- Texts behind commas are read as further members. -/
theorem moreMembers_flatMap (regular : Regular member) {texts : List (List Char)}
    {types : List TypeSyntax} (each : List.Forall₂ (ReadsAs member) texts types)
    (rest : List Char) :
    MoreMembers member (texts.flatMap (fun text => ',' :: text) ++ ')' :: rest) types rest := by
  induction each with
  | nil => exact .close rfl
  | @cons text type texts types first _ inductionHypothesis =>
    have read := regular.read_skipBlanks (first (closing_flatMap texts rest))
    rw [List.flatMap_cons, List.append_assoc]
    exact .next read inductionHypothesis

theorem intercalate_comma_cons (text : List Char) (texts : List (List Char)) :
    [','].intercalate (text :: texts) = text ++ texts.flatMap fun text => ',' :: text := by
  induction texts generalizing text with
  | nil => simp
  | cons next texts inductionHypothesis =>
    rw [List.intercalate_cons_cons, inductionHypothesis]
    simp

/-- Texts between commas are read as the members of a tuple. -/
theorem members_intercalate (regular : Regular member) {texts : List (List Char)}
    {types : List TypeSyntax} (each : List.Forall₂ (ReadsAs member) texts types)
    (rest : List Char) :
    Members member ([','].intercalate texts ++ ')' :: rest) types rest := by
  cases each with
  | nil => exact .none rfl
  | @cons text type texts types first others =>
    have read := regular.read_skipBlanks (first (closing_flatMap texts rest))
    rw [intercalate_comma_cons, List.append_assoc]
    exact .some read (moreMembers_flatMap regular others rest)

end TypeSyntax

end ContractAbi
