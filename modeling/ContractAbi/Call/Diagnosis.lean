import ContractAbi.Argument.Rendering

/-!
# Diagnoses

Why no single element could be chosen for a call, with what was supplied and what was declared.
-/

namespace ContractAbi

/-- Why resolution did not end with exactly one element. -/
inductive Reason where
  /-- No element of the name takes this many arguments. -/
  | argumentCount
  /-- Elements take this many arguments, but none of them takes these. -/
  | argumentTypes
  /-- More than one element takes these arguments. -/
  | ambiguous
  deriving DecidableEq, Repr

namespace Reason

/-- The reason that follows from the number of elements with a fitting argument count and the number
of those that take the arguments. With exactly one of the latter there is none. -/
def ofCounts? (fitting matching : Nat) : Option Reason :=
  if fitting = 0 then some .argumentCount
  else if matching = 0 then some .argumentTypes
  else if matching > 1 then some .ambiguous
  else none

/-- The wording of a reason. -/
def message : Reason → String
  | .argumentCount => "Function invocation failed due to improper number of arguments."
  | .argumentTypes => "Function invocation failed due to no matching argument types."
  | .ambiguous =>
    "Ambiguous argument encoding. Provided arguments can be encoded to multiple functions " ++
      "matching this call."

end Reason

/-- An account of a failed resolution. -/
structure Diagnosis where
  identifier : String
  reason : Reason
  /-- The rendered types of the positional arguments. -/
  positionalTypes : String
  /-- The rendered type of each named argument. -/
  namedTypes : List (String × String)
  /-- The signatures of all elements of the name, whatever their argument count. -/
  signatures : List String
  deriving DecidableEq

namespace Diagnosis

/-- The account of a failed resolution with the given arguments. -/
def ofCall (identifier : String) (reason : Reason) (arguments : List Argument)
    (named : NamedArguments) (signatures : List String) : Diagnosis where
  identifier := identifier
  reason := reason
  positionalTypes := Argument.renderTypes arguments
  namedTypes := named.entries.map fun (name, value) => (name, Argument.renderTypes [value])
  signatures := signatures

/-- The wording of a diagnosis, in three lines. -/
def message (diagnosis : Diagnosis) : String :=
  let name := diagnosis.identifier
  let namedTypes := diagnosis.namedTypes.map fun (name, type) => name ++ ": " ++ type
  "Could not identify the intended function with name `" ++ name ++
    "`, positional arguments with type(s) `(" ++ diagnosis.positionalTypes ++
    ")` and keyword arguments with type(s) `\x7b" ++ ", ".intercalate namedTypes ++ "\x7d`.\n" ++
    "Found " ++ toString diagnosis.signatures.length ++ " function(s) with the name `" ++ name ++
    "`: [" ++ ", ".intercalate diagnosis.signatures ++ "]\n" ++
    diagnosis.reason.message

end Diagnosis

end ContractAbi
