import ContractAbi.Address
import ContractAbi.Integer
import ContractAbi.Keyed

/-!
# Loose arguments

The values that a caller supplies, before any type is known for them. Named arguments stand in key
order under distinct names.
-/

namespace ContractAbi

/-- A value as a caller supplies it. -/
inductive Argument where
  | bool (value : Bool)
  | int (number : Int256)
  | uint (number : Uint256)
  | text (content : String)
  | bytes (content : Bytes)
  | address (place : Address)
  | list (items : List Argument)
  /-- The entries stand in key order. -/
  | map (entries : List (String × Argument))

namespace Argument

instance : Inhabited Argument := ⟨.bool false⟩

/-- The mapping with the given entries, of which later ones replace earlier ones. -/
def ofEntries (entries : List (String × Argument)) : Argument := .map (Keyed.ofList entries)

/-- Whether the value can be taken for an address. -/
def isAddressLike : Argument → Bool
  | .address _ => true
  | .bytes content => content.length == 20
  | .text content => (Address.ofChecksummed? content).isSome
  | _ => false

/-- The word for the kind of the value, where whatever looks like an address is called one. -/
def readableType (argument : Argument) : String :=
  if argument.isAddressLike then "address"
  else match argument with
    | .bool _ => "bool"
    | .int _ | .uint _ => "int"
    | .text _ => "string"
    | .bytes _ => "bytes"
    | .address _ => "address"
    | .list _ => "list"
    | .map _ => "map"

mutual
/-- The text of a value: texts in quotes, bytes in digits, addresses in checksum case. -/
def toText : Argument → String
  | .bool value => if value then "true" else "false"
  | .int number => toString number.toInt
  | .uint number => toString number.toNat
  | .text content => Text.Quoted.text content
  | .bytes content => Hex.encode content
  | .address place => place.checksummed
  | .list items => "[" ++ ", ".intercalate (itemTexts items) ++ "]"
  | .map entries => "\x7b" ++ ", ".intercalate (entryTexts entries) ++ "\x7d"

/-- The texts of values. -/
def itemTexts : List Argument → List String
  | [] => []
  | item :: items => item.toText :: itemTexts items

/-- The texts of entries, each with its key in front. -/
def entryTexts : List (String × Argument) → List String
  | [] => []
  | (key, value) :: entries => (key ++ ": " ++ value.toText) :: entryTexts entries
end

end Argument

/-- Arguments under distinct names, in ascending order of the names. -/
structure NamedArguments where
  entries : Keyed Argument
  ascending : entries.Ascending

namespace NamedArguments

/-- No named arguments. -/
def empty : NamedArguments := ⟨[], List.Pairwise.nil⟩

/-- The named arguments with the given entries, of which later ones replace earlier ones. -/
def ofList (entries : List (String × Argument)) : NamedArguments :=
  ⟨Keyed.ofList entries, Keyed.ascending_ofList entries⟩

/-- The number of named arguments. -/
def size (named : NamedArguments) : Nat := named.entries.length

/-- Whether there are no named arguments. -/
def isEmpty (named : NamedArguments) : Bool := named.entries.isEmpty

end NamedArguments

end ContractAbi
