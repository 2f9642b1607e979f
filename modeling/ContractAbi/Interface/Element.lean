import ContractAbi.Interface.Param

/-!
# Elements of an interface

Functions, events and errors have names; the constructor, the fallback function and the receive
function of a contract have none and are found by their kind. Outputs, state mutability and the
marks of indexed inputs are kept but take part in no lookup: they only tell elements apart.
-/

namespace ContractAbi

/-- The kind of an element. -/
inductive ElementKind where
  | function
  | constructor
  | fallback
  | receive
  | event
  | error
  deriving DecidableEq, Repr

namespace ElementKind

/-- The word for a kind. -/
def word : ElementKind → String
  | .function => "function"
  | .constructor => "constructor"
  | .fallback => "fallback"
  | .receive => "receive"
  | .event => "event"
  | .error => "error"

/-- Whether elements of the kind are found by name. -/
def isNamed : ElementKind → Bool
  | .function | .event | .error => true
  | .constructor | .fallback | .receive => false

end ElementKind

/-- Whether calls read or change the state of a contract, and whether they may bring a payment. -/
inductive StateMutability where
  | pure
  | view
  | nonPayable
  | payable
  deriving DecidableEq

/-- A function of a contract. -/
structure FunctionDeclaration where
  name : String
  inputs : List Param
  outputs : List Param
  mutability : StateMutability
  deriving DecidableEq

/-- The constructor of a contract. -/
structure ConstructorDeclaration where
  inputs : List Param
  mutability : StateMutability
  deriving DecidableEq

/-- An input of an event. An indexed one stands in a topic of its own. -/
structure EventParam extends Param where
  indexed : Bool
  deriving DecidableEq

/-- An event, whose logs open with its signature hash unless it is anonymous. -/
structure Event where
  name : String
  inputs : List EventParam
  anonymous : Bool
  deriving DecidableEq

/-- The declared inputs in order, indexed or not. -/
def Event.params (event : Event) : List Param := event.inputs.map EventParam.toParam

/-- An error of a contract. -/
structure ErrorDeclaration where
  name : String
  inputs : List Param
  deriving DecidableEq

/-- One declaration of an interface. -/
inductive Element where
  | function (declaration : FunctionDeclaration)
  | constructor (declaration : ConstructorDeclaration)
  | fallback (mutability : StateMutability)
  | receive (mutability : StateMutability)
  | event (declaration : Event)
  | error (declaration : ErrorDeclaration)
  deriving DecidableEq

namespace Element

instance : Inhabited Element := ⟨.fallback .nonPayable⟩

/-- The kind of the element. -/
def kind : Element → ElementKind
  | .function _ => .function
  | .constructor _ => .constructor
  | .fallback _ => .fallback
  | .receive _ => .receive
  | .event _ => .event
  | .error _ => .error

/-- The name of the element, if it has one. -/
def name? : Element → Option String
  | .function declaration => some declaration.name
  | .event declaration => some declaration.name
  | .error declaration => some declaration.name
  | .constructor _ | .fallback _ | .receive _ => none

/-- The declared inputs in order. -/
def inputs : Element → List Param
  | .function declaration => declaration.inputs
  | .constructor declaration => declaration.inputs
  | .event declaration => declaration.params
  | .error declaration => declaration.inputs
  | .fallback _ | .receive _ => []

/-- The event that the element declares, if it declares one. -/
def event? : Element → Option Event
  | .event declaration => some declaration
  | _ => none

/-- Whether the element takes raw data instead of arguments. -/
def takesRawData : Element → Bool
  | .fallback _ | .receive _ => true
  | _ => false

/-- The number of declared inputs. -/
def inputCount (element : Element) : Nat := element.inputs.length

/-- The canonical types of the inputs in order. -/
def inputTypes (element : Element) : List String := element.inputs.map Param.canonicalType

/-- The name, or the word for the kind, with the canonical input types in parentheses. -/
def signature (element : Element) : String :=
  element.name?.getD element.kind.word ++ "(" ++ ",".intercalate element.inputTypes ++ ")"

/-- The signature behind the word for the kind. -/
def description (element : Element) : String :=
  element.kind.word ++ " " ++ element.signature

/-- A named element has a name. -/
theorem isSome_name?_eq_isNamed (element : Element) :
    element.name?.isSome = element.kind.isNamed := by
  cases element <;> rfl

end Element

end ContractAbi
