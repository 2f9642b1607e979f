import ContractAbi.Interface.Element

/-!
# Identifiers

What a caller asks for: a name, or one of the functions without a name. The words for the unnamed
kinds are no names of functions, events or errors.
-/

namespace ContractAbi

/-- What a caller asks for. -/
inductive Identifier where
  | name (text : String)
  | fallback
  | receive
  deriving DecidableEq

/-- Where an identifier is looked up. -/
inductive Lookup where
  /-- There is nothing to look up. -/
  | nowhere
  | ofKind (kind : ElementKind)
  | ofName (name : String)
  deriving DecidableEq

namespace Identifier

/-- The text of an identifier. -/
def text : Identifier → String
  | .name text => text
  | .fallback => "fallback"
  | .receive => "receive"

/-- Where the identifier is looked up: the words for the unnamed kinds stand for those kinds. -/
def lookup : Identifier → Lookup
  | .fallback => .ofKind .fallback
  | .receive => .ofKind .receive
  | .name text =>
    if text = "fallback" then .ofKind .fallback
    else if text = "receive" then .ofKind .receive
    else if text = "" then .nowhere
    else if text = "constructor" then .ofKind .constructor
    else .ofName text

/-- A name is ordinary when functions, events and errors are looked up under it: it is not empty,
and no word for an unnamed kind. -/
def IsOrdinary (name : String) : Prop :=
  name ≠ "" ∧ name ≠ "fallback" ∧ name ≠ "receive" ∧ name ≠ "constructor"

instance (name : String) : Decidable (IsOrdinary name) := inferInstanceAs (Decidable (_ ∧ _))

/-- Ordinary names, and no others, are looked up as names. -/
theorem lookup_eq_ofName_iff (identifier : Identifier) (name : String) :
    identifier.lookup = .ofName name ↔ identifier = .name name ∧ IsOrdinary name := by
  cases identifier with
  | name text =>
    simp only [lookup, IsOrdinary, Identifier.name.injEq]
    grind
  | fallback => simp [lookup]
  | receive => simp [lookup]

end Identifier

end ContractAbi
