import ContractAbi.Decimal.Shortest
import ContractAbi.Text.Quoted

/-!
# Single settings

What a settings file or a variable may hold under one key. What lists and mappings hold is of no
concern, because no setting is made of them, with one exception: a table of a settings file may
annotate a setting, and then stands for it.
-/

namespace ContractAbi

/-- The content of one key. -/
inductive Setting where
  | bool (value : Bool)
  | signed (number : Int)
  | unsigned (number : Nat)
  /-- An integer that takes more than 64 bits. -/
  | wide (number : Int)
  | float (value : Binary64)
  | text (content : String)
  | unit
  | sequence
  | mapping
  deriving DecidableEq, Repr

namespace Setting

/-- The setting of an integer, which may take 128 bits, with a sign or without one. -/
def ofInt? (number : Int) : Option Setting :=
  if -(1 <<< 63) ≤ number ∧ number < 1 <<< 63 then some (.signed number)
  else if 0 ≤ number ∧ number < 1 <<< 64 then some (.unsigned number.toNat)
  else if -(1 <<< 127) ≤ number ∧ number < 1 <<< 128 then some (.wide number)
  else none

/-- What was found, in words. -/
def description : Setting → String
  | .bool value => if value then "bool true" else "bool false"
  | .signed number => "signed int `" ++ toString number ++ "`"
  | .unsigned number => "unsigned int `" ++ toString number ++ "`"
  | .wide number =>
    "integer `" ++ toString number ++ "` as " ++ (if number < 1 <<< 127 then "i128" else "u128")
  | .float value => "float `" ++ value.toText ++ "`"
  | .text content => "string " ++ Text.Quoted.text content
  | .unit => "unit"
  | .sequence => "sequence"
  | .mapping => "map"

/-! ## Annotated settings -/

/-- The key of an annotated setting in the table that annotates it. -/
def annotatedKey : String := "___figment_value_value"

/-- The key of the annotation itself. -/
def annotationKey : String := "___figment_value_id"

/-- Whether a setting can be an annotation. -/
def isAnnotation : Setting → Bool
  | .signed _ | .unsigned _ => true
  | _ => false

/-- The setting that a table with the given entries stands for: the annotated one, if there is one.
No table stands for anything whose annotation is no number. -/
def ofTable? (entries : List (String × Setting)) : Option Setting :=
  if (entries.lookup annotationKey).all isAnnotation then
    some ((entries.lookup annotatedKey).getD .mapping)
  else none

end Setting

end ContractAbi
