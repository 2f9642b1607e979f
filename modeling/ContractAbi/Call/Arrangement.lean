import ContractAbi.Argument
import ContractAbi.Call.EncodingError
import ContractAbi.Interface.Element

/-!
# Arrangement of arguments

Positional and named arguments are put into the declared order of an element's inputs. Named
arguments take their places first; positional ones then fill the places that are left, from left to
right.
-/

namespace ContractAbi

namespace Arrangement

/-- The place of the first input with the given name. -/
def place? (inputs : List Param) (name : String) : Option Nat :=
  inputs.findIdx? fun input => input.name == name

/-- Puts each named argument into its place. The first `positional` places are taken. -/
def placeNamed (inputs : List Param) (positional : Nat) :
    List (String × Argument) → List (Option Argument) →
      Except EncodingError (List (Option Argument))
  | [], slots => .ok slots
  | (name, value) :: rest, slots =>
    match place? inputs name with
    | none => .error (.unknownArgument name)
    | some place =>
      if place < positional then .error (.duplicateArgument name)
      else placeNamed inputs positional rest (slots.set place (some value))

/-- Fills the empty places with the given values from left to right. -/
def fillGaps : List (Option Argument) → List Argument → List (Option Argument)
  | [], _ => []
  | some value :: slots, values => some value :: fillGaps slots values
  | none :: slots, [] => none :: fillGaps slots []
  | none :: slots, value :: values => some value :: fillGaps slots values

/-- The values of all places, each of which belongs to the input of the same place. -/
def collect : List Param → List (Option Argument) → Except EncodingError (List Argument)
  | input :: inputs, slot :: slots =>
    match slot with
    | none => .error (.missingArgument input.name)
    | some value => (value :: ·) <$> collect inputs slots
  | _, _ => .ok []

end Arrangement

/-- The arguments in the declared order of the element's inputs. -/
def Element.arrange (element : Element) (arguments : List Argument) (named : NamedArguments) :
    Except EncodingError (List Argument) :=
  let supplied := arguments.length + named.size
  if supplied ≠ element.inputCount then .error (.argumentCount element.inputCount supplied)
  else
    let empty := List.replicate element.inputCount none
    match Arrangement.placeNamed element.inputs arguments.length named.entries empty with
    | .error fault => .error fault
    | .ok slots => Arrangement.collect element.inputs (Arrangement.fillGaps slots arguments)

end ContractAbi
