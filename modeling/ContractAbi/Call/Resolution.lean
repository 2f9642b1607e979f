import ContractAbi.Call.Diagnosis
import ContractAbi.Call.Encodability
import ContractAbi.Call.Identifier
import ContractAbi.Interface

/-!
# Resolution of calls

An identifier and arguments are resolved to one element of an interface. The constructor, the
fallback and the receive function are found by their kind, of which there must be exactly one. Every
other name is looked up among functions, events and errors, first by name, then by argument count,
then by whether the arguments can be encoded; exactly one element must remain.
-/

namespace ContractAbi

/-- Why a call was not resolved. -/
inductive ResolutionError where
  | invalidIdentifier
  | notFound (kind : ElementKind)
  | unresolved (diagnosis : Diagnosis)
  | encoding (error : EncodingError)
  deriving DecidableEq

/-- The wording of an error. -/
def ResolutionError.message : ResolutionError → String
  | .invalidIdentifier => "unsupported function identifier"
  | .notFound kind => "no " ++ kind.word ++ " was found in the contract ABI"
  | .unresolved diagnosis => diagnosis.message
  | .encoding error => error.message

namespace Interface

/-- The only element of a kind. -/
def onlyOfKind (interface : Interface) (kind : ElementKind) : Except ResolutionError Element :=
  match interface.ofKind kind with
  | [element] => .ok element
  | _ => .error (.notFound kind)

/-- The elements of a name that have as many inputs as there are arguments. -/
def ofArity (interface : Interface) (name : String) (count : Nat) : List Element :=
  (interface.named name).filter fun element => element.inputCount = count

/-- The choice among the elements of a fitting argument count, given those that take the arguments:
the only one of these, or else an account of the failure. -/
def choose (interface : Interface) (name : String) (arguments : List Argument)
    (named : NamedArguments) (fitting : Nat) :
    Except EncodingError (List Element) → Except ResolutionError Element
  | .error error => .error (.encoding error)
  | .ok [element] => .ok element
  | .ok matching =>
    let reason := (Reason.ofCounts? fitting matching.length).getD .ambiguous
    let signatures := (interface.named name).map Element.signature
    .error (.unresolved (Diagnosis.ofCall name reason arguments named signatures))

/-- The element of a name that takes the arguments. A call without arguments goes to the only
element without inputs unprobed. -/
def findByName (interface : Interface) (codec : Codec) (name : String)
    (arguments : List Argument) (named : NamedArguments) :
    Probed (Except ResolutionError Element) :=
  let fitting := interface.ofArity name (arguments.length + named.size)
  match arguments.isEmpty && named.isEmpty, fitting with
  | true, [element] => .unprobed (.ok element)
  | _, _ =>
    (codec.encodable arguments named fitting).map
      (interface.choose name arguments named fitting.length)

/-- The element that the identifier and the arguments stand for. -/
def findElement (interface : Interface) (codec : Codec) (identifier : Identifier)
    (arguments : List Argument) (named : NamedArguments) :
    Probed (Except ResolutionError Element) :=
  match identifier.lookup with
  | .nowhere => .unprobed (.error .invalidIdentifier)
  | .ofKind kind => .unprobed (interface.onlyOfKind kind)
  | .ofName name => interface.findByName codec name arguments named

end Interface

/-- A resolved call. -/
structure ResolvedCall where
  element : Element
  selector? : Option Selector
  /-- The canonical types of the element's inputs. -/
  types : List String
  /-- The arguments in declared order, in the shape of the types. -/
  arguments : List Argument

namespace ResolvedCall

/-- The selector, if there is one, and the encoded arguments. -/
def encodeInput (call : ResolvedCall) (codec : Codec) : Except EncodingError Bytes :=
  ((call.selector?.map Subtype.val).getD [] ++ ·) <$> codec.encode call.types call.arguments

/-- The resolved call to an element. What takes raw data takes no arguments. -/
def ofElement (codec : Codec) (element : Element) (arguments : List Argument)
    (named : NamedArguments) : Except EncodingError ResolvedCall :=
  let selector? := codec.selector? element
  if element.takesRawData then .ok ⟨element, selector?, [], []⟩
  else do
    let arranged ← codec.arrange element arguments named
    let (types, aligned) ← codec.align element arranged
    return ⟨element, selector?, types, aligned⟩

end ResolvedCall

/-- Resolves an identifier and arguments to a call. -/
def Interface.resolve (interface : Interface) (codec : Codec) (identifier : Identifier)
    (arguments : List Argument) (named : NamedArguments) :
    Probed (Except ResolutionError ResolvedCall) :=
  (interface.findElement codec identifier arguments named).map fun found => do
    let element ← found
    (ResolvedCall.ofElement codec element arguments named).mapError .encoding

end ContractAbi
