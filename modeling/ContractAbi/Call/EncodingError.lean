import ContractAbi.AbiType.Name
import ContractAbi.Value.Decoding

/-!
# Errors of a call's arguments

An error either says that the arguments do not fit a declaration, which is an ordinary mismatch, or
that the declaration or the encoded data is broken.
-/

namespace ContractAbi

/-- Why arguments cannot be encoded or data cannot be decoded. -/
inductive EncodingError where
  | argumentCount (expected actual : Nat)
  /-- A name is also covered by a positional argument. -/
  | duplicateArgument (name : String)
  | unknownArgument (name : String)
  | missingArgument (name : String)
  | componentCount (type : String) (expected actual : Nat)
  | expectedComposite (type : String)
  | missingComponent (type name : String)
  | valueMismatch (type actual : String)
  | invalidType (type : String) (fault : TypeFault)
  | undecodable (fault : DecodingFault)
  /-- A codec reports a failure of its own. -/
  | codecFailure (message : String)
  deriving DecidableEq

namespace EncodingError

/-- The wording of an error. -/
def message : EncodingError → String
  | .argumentCount expected actual =>
    "expected " ++ toString expected ++ " argument(s), got " ++ toString actual
  | .duplicateArgument name =>
    "argument `" ++ name ++ "` was supplied both by position and by name"
  | .unknownArgument name => "no parameter named `" ++ name ++ "`"
  | .missingArgument name => "missing value for parameter `" ++ name ++ "`"
  | .componentCount type expected actual =>
    "expected " ++ toString expected ++ " component(s) for `" ++ type ++ "`, got " ++
      toString actual
  | .expectedComposite type => "expected a list or a mapping for `" ++ type ++ "`"
  | .missingComponent type name => "missing component `" ++ name ++ "` for `" ++ type ++ "`"
  | .valueMismatch type actual =>
    "value of type `" ++ actual ++ "` cannot be encoded as `" ++ type ++ "`"
  | .invalidType type fault =>
    "invalid ABI type `" ++ type ++ "`" ++
      match fault.message? with
      | some reason => ": " ++ reason
      | none => ""
  | .undecodable fault => fault.message
  | .codecFailure message => message

/-- Whether the arguments merely do not fit the declaration. -/
def isMismatch : EncodingError → Bool
  | .invalidType .. | .undecodable _ | .codecFailure _ => false
  | _ => true

end EncodingError

end ContractAbi
