import ContractAbi.Argument

/-!
# Rendered argument types

The types of a list of arguments in one line. A list that stands as an argument of its own is
flattened into its items; a list among those items is put in parentheses and rendered in turn.
-/

namespace ContractAbi.Argument

mutual
/-- The rendered type of each argument. -/
def renderedTypes : List Argument → List String
  | [] => []
  | .list items :: arguments => ",".intercalate (itemTypes items) :: renderedTypes arguments
  | argument :: arguments => argument.readableType :: renderedTypes arguments

/-- The rendered type of each item of a flattened list. -/
def itemTypes : List Argument → List String
  | [] => []
  | .list inner :: items => ("(" ++ ",".intercalate (renderedTypes inner) ++ ")") :: itemTypes items
  | item :: items => item.readableType :: itemTypes items
end

/-- The rendered types of arguments, joined by commas. -/
def renderTypes (arguments : List Argument) : String :=
  ",".intercalate (renderedTypes arguments)

end ContractAbi.Argument
