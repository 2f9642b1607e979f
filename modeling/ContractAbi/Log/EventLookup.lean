import ContractAbi.Interface

/-!
# Lookup of events

An event is found by its name, and among several of that name by inputs that it must declare.
-/

namespace ContractAbi

/-- Why no single event was found. -/
inductive EventLookupError where
  | missingName
  | notFound
  | multiple (name : String)
  deriving DecidableEq

/-- The wording of an error. -/
def EventLookupError.message : EventLookupError → String
  | .missingName => "an event name is required in order to match an event ABI"
  | .notFound => "no " ++ ElementKind.event.word ++ " was found in the contract ABI"
  | .multiple name => "multiple events named `" ++ name ++ "` match the given argument names"

/-- Whether the event declares an input of the given name. -/
def Event.declares (event : Event) (name : String) : Bool :=
  event.inputs.any fun input => input.name = name

/-- Whether the event declares all of the given inputs. Where none are given it may declare any. -/
def Event.declaresAll (event : Event) : Option (List String) → Bool
  | none => true
  | some argumentNames => argumentNames.all event.declares

/-- The events of a name that declare all of the given inputs. -/
def Interface.eventsDeclaring (interface : Interface) (name : String)
    (argumentNames : Option (List String)) : List Event :=
  interface.events.filter fun event => event.name = name && event.declaresAll argumentNames

/-- The only event of a name that declares all of the given inputs. -/
def Interface.findEvent (interface : Interface) (name : String)
    (argumentNames : Option (List String)) : Except EventLookupError Event :=
  if name = "" then .error .missingName
  else
    match interface.eventsDeclaring name argumentNames with
    | [] => .error .notFound
    | [event] => .ok event
    | _ => .error (.multiple name)

end ContractAbi
