import Mathlib

/-!
# Parentheses and commas in texts

Texts that are joined by commas keep their parentheses balanced (`Text.Balanced.intercalate`), and
as long as they have no commas of their own, they are the pieces between the commas
(`Text.pieces_intercalate`).
-/

namespace ContractAbi.Text

/-- All parentheses that are opened are closed, and none is closed before it is opened. -/
structure Balanced (text : List Char) : Prop where
  closed : text.count ')' = text.count '('
  opened : ∀ before after, text = before ++ after → before.count ')' ≤ before.count '('

/-- A text without its parentheses. -/
def withoutParentheses (text : String) : String :=
  String.ofList (text.toList.filter fun char => char ≠ '(' ∧ char ≠ ')')

/-- The pieces of a text between its commas. -/
def pieces (text : String) : List String :=
  (text.split ',').toList.map String.Slice.copy

/-! ## Balanced parentheses -/

variable {text first second : List Char}

theorem Balanced.of_plain (noOpening : '(' ∉ text) (noClosing : ')' ∉ text) : Balanced text where
  closed := by rw [List.count_eq_zero.2 noOpening, List.count_eq_zero.2 noClosing]
  opened := by
    rintro before after rfl
    rw [List.count_eq_zero.2 fun member => noClosing (List.mem_append_left after member)]
    exact Nat.zero_le _

theorem Balanced.append (left : Balanced first) (right : Balanced second) :
    Balanced (first ++ second) where
  closed := by rw [List.count_append, List.count_append, left.closed, right.closed]
  opened := by
    intro before after split
    -- The cut falls into the second text or into the first one.
    obtain ⟨rest, rfl, rfl⟩ | ⟨rest, rfl, rfl⟩ := List.append_eq_append_iff.1 split
    · have opened := right.opened rest after rfl
      rw [List.count_append, List.count_append, left.closed]
      omega
    · exact left.opened before rest rfl

theorem Balanced.enclosed (inner : Balanced text) : Balanced ('(' :: (text ++ [')'])) where
  closed := by simp [inner.closed]
  opened := by
    intro before after split
    cases before with
    | nil => exact Nat.le_refl _
    | cons char before =>
      obtain ⟨rfl, inside⟩ := List.cons.inj split
      obtain ⟨rest, rfl, last⟩ | ⟨rest, rfl, -⟩ := List.append_eq_append_iff.1 inside
      · -- What is cut off behind the inner text closes at most the outer parenthesis.
        have one := congrArg (List.count ')') last
        rw [List.count_singleton_self, List.count_append] at one
        have closed := inner.closed
        rw [List.count_cons_of_ne (by decide), List.count_cons_self, List.count_append,
          List.count_append]
        omega
      · have opened := inner.opened before rest rfl
        rw [List.count_cons_of_ne (by decide), List.count_cons_self]
        omega

theorem Balanced.intercalate {texts : List String} (each : ∀ text ∈ texts, Balanced text.toList) :
    Balanced (",".intercalate texts).toList := by
  induction texts with
  | nil => exact .of_plain (by simp) (by simp)
  | cons text texts inductionHypothesis =>
    obtain ⟨first, others⟩ := List.forall_mem_cons.1 each
    by_cases last : texts = []
    · simpa [last] using first
    · have comma : Balanced [','] := .of_plain (by decide) (by decide)
      rw [String.intercalate_cons_of_ne_nil last, String.toList_append, String.toList_append]
      exact (first.append comma).append (inductionHypothesis others)

/-! ## Texts without parentheses -/

theorem withoutParentheses_append (left right : String) :
    withoutParentheses (left ++ right) = withoutParentheses left ++ withoutParentheses right := by
  simp [withoutParentheses, String.ofList_append]

theorem withoutParentheses_of_plain {text : String} (noOpening : '(' ∉ text.toList)
    (noClosing : ')' ∉ text.toList) : withoutParentheses text = text := by
  have kept : text.toList.filter (fun char => char ≠ '(' ∧ char ≠ ')') = text.toList := by
    apply List.filter_eq_self.2
    intro char member
    apply decide_eq_true
    exact ⟨ne_of_mem_of_not_mem member noOpening, ne_of_mem_of_not_mem member noClosing⟩
  rw [withoutParentheses, kept, String.ofList_toList]

theorem withoutParentheses_enclosed (text : String) :
    withoutParentheses ("(" ++ text ++ ")") = withoutParentheses text := by
  rw [withoutParentheses_append, withoutParentheses_append]
  simp [withoutParentheses]

theorem withoutParentheses_intercalate (texts : List String) :
    withoutParentheses (",".intercalate texts) =
      ",".intercalate (texts.map withoutParentheses) := by
  induction texts with
  | nil => rfl
  | cons text texts inductionHypothesis =>
    by_cases last : texts = []
    · simp [last]
    · have others : texts.map withoutParentheses ≠ [] := by simpa using last
      have comma : withoutParentheses "," = "," := rfl
      rw [String.intercalate_cons_of_ne_nil last, List.map_cons,
        String.intercalate_cons_of_ne_nil others, withoutParentheses_append,
        withoutParentheses_append, comma, inductionHypothesis]

/-! ## Pieces between commas -/

/-- Texts may be joined in groups first. -/
theorem intercalate_flatMap {α : Type} {group : α → List String}
    (nonempty : ∀ item, group item ≠ []) (separator : String) (items : List α) :
    separator.intercalate (items.flatMap group) =
      separator.intercalate (items.map fun item => separator.intercalate (group item)) := by
  induction items with
  | nil => rfl
  | cons item items inductionHypothesis =>
    cases items with
    | nil => simp
    | cons next items =>
      have others : (next :: items).flatMap group ≠ [] := by simp [nonempty]
      rw [List.flatMap_cons, String.intercalate_append_of_ne_nil (nonempty item) others,
        inductionHypothesis, List.map_cons, List.map_cons, List.map_cons,
        String.intercalate_cons_cons]

/-- Texts without commas are the pieces of what they are joined to. -/
theorem pieces_intercalate {texts : List String} (nonempty : texts ≠ [])
    (noComma : ∀ text ∈ texts, ',' ∉ text.toList) : pieces (",".intercalate texts) = texts := by
  have read := String.toList_split_intercalate noComma
  rw [if_neg nonempty] at read
  exact read

end ContractAbi.Text
