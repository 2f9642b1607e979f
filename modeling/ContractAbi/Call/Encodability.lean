import ContractAbi.Call.Codec
import ContractAbi.Call.Probed

/-!
# Encodability of arguments

Whether an element takes given arguments: they must have an arrangement and an alignment, and every
aligned argument must be encodable at its type. Types are probed in order up to the first failure.
-/

namespace ContractAbi.Codec

/-- Probes arguments at their types up to the first one that cannot be encoded. -/
def probeEach (codec : Codec) : List (String × Argument) → Probed Bool
  | [] => .unprobed true
  | (type, argument) :: rest =>
    if codec.isEncodable type argument then (probeEach codec rest).behind type else ⟨false, [type]⟩

/-- Turns an ordinary mismatch into a negative answer and keeps every other error. -/
def refuse (error : EncodingError) : Except EncodingError Bool :=
  if error.isMismatch then .ok false else .error error

/-- Whether the element takes the arguments. -/
def canEncode (codec : Codec) (element : Element) (arguments : List Argument)
    (named : NamedArguments) : Probed (Except EncodingError Bool) :=
  if element.takesRawData then .unprobed (.ok true)
  else
    match codec.arrange element arguments named with
    | .error error => .unprobed (refuse error)
    | .ok arranged =>
      if arranged.length ≠ element.inputCount then .unprobed (.ok false)
      else
        match codec.align element arranged with
        | .error error => .unprobed (refuse error)
        | .ok (types, aligned) => (codec.probeEach (types.zip aligned)).map .ok

/-- The elements that take the arguments, up to the first error. -/
def encodable (codec : Codec) (arguments : List Argument) (named : NamedArguments) :
    List Element → Probed (Except EncodingError (List Element))
  | [] => .unprobed (.ok [])
  | element :: elements =>
    (codec.canEncode element arguments named).andThen fun
      | .error error => .unprobed (.error error)
      | .ok taken =>
        (codec.encodable arguments named elements).map fun others =>
          others.map fun others => if taken then element :: others else others

end ContractAbi.Codec
