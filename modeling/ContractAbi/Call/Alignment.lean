import ContractAbi.Argument
import ContractAbi.Call.EncodingError
import ContractAbi.Interface.Element

/-!
# Alignment of arguments

Arguments in declared order are given the shape of the declared types. Where a tuple is declared, a
list must have one item per component, and a mapping is put into the order of the components; where
an array of tuples is declared, a list is aligned item by item. Everything else stays as it is.
-/

namespace ContractAbi

namespace Alignment

/-- The number of bracketed groups at the front of a reversed text, of which the closing bracket of
the first is already behind when `within` is set. -/
def bracketGroups (within : Bool) : List Char → Nat
  | [] => 0
  | char :: rest =>
    match within with
    | false => if char = ']' then bracketGroups true rest else 0
    | true => if char = '[' then bracketGroups false rest + 1 else bracketGroups true rest

/-- The number of array levels that a type suffix adds around a tuple: the bracketed groups at its
end. -/
def arrayLevels (suffix : List Char) : Nat := bracketGroups false suffix.reverse

example : arrayLevels "[2][]".toList = 2 ∧ arrayLevels "x]".toList = 0 ∧
    arrayLevels "[a[b]".toList = 1 := by decide

/-- Aligns what stands below the given number of array levels. -/
def alignLevels (type : String) (leaf : Argument → Except EncodingError Argument) :
    (levels : Nat) → Argument → Except EncodingError Argument
  | 0, argument => leaf argument
  | levels + 1, .list items => .list <$> items.mapM (alignLevels type leaf levels)
  | _ + 1, _ => .error (.expectedComposite type)

/-- The values of the named components in their order. Every entry must be one of them. -/
def takeComponents (type : String) : List Param → List (String × Argument) →
    Except EncodingError (List Argument)
  | [], [] => .ok []
  | [], (extra, _) :: _ => .error (.unknownArgument extra)
  | component :: components, entries =>
    match entries.lookup component.name with
    | none => .error (.missingComponent type component.name)
    | some value =>
      let others := entries.filter fun entry => entry.1 ≠ component.name
      (value :: ·) <$> takeComponents type components others

/-- The values of the components of a tuple in their order. -/
def componentValues (type : String) (components : List Param) :
    Argument → Except EncodingError (List Argument)
  | .list items =>
    if items.length = components.length then .ok items
    else .error (.componentCount type components.length items.length)
  | .map entries => takeComponents type components entries
  | _ => .error (.expectedComposite type)

mutual
/-- Aligns an argument to a parameter. -/
def align : Param → Argument → Except EncodingError Argument
  | ⟨name, type, components, internalType⟩, argument =>
    match Param.tupleSuffix? type with
    | none => .ok argument
    | some suffix =>
      let canonicalType := Param.canonicalType ⟨name, type, components, internalType⟩
      let tuple (argument : Argument) : Except EncodingError Argument := do
        let values ← componentValues canonicalType components argument
        return .list (← alignEach components values)
      alignLevels canonicalType tuple (arrayLevels suffix) argument

/-- Aligns arguments to parameters, one by one. -/
def alignEach : List Param → List Argument → Except EncodingError (List Argument)
  | param :: params, argument :: arguments => do
    let first ← align param argument
    let others ← alignEach params arguments
    return first :: others
  | _, _ => .ok []
end

/-- Checks and aligns inputs, one after the other, and gives each its canonical type. -/
def alignInputs : List Param → List Argument →
    Except EncodingError (List String × List Argument)
  | input :: inputs, argument :: arguments => do
    let type := input.canonicalType
    match AbiType.parse type with
    | .error fault => throw (.invalidType type fault)
    | .ok _ =>
      let first ← align input argument
      let (types, others) ← alignInputs inputs arguments
      return (type :: types, first :: others)
  | _, _ => .ok ([], [])

end Alignment

/-- The canonical types of the element's inputs, and the arguments in the shape of those types. -/
def Element.align (element : Element) (arguments : List Argument) :
    Except EncodingError (List String × List Argument) :=
  if element.inputCount ≠ arguments.length then
    .error (.argumentCount element.inputCount arguments.length)
  else Alignment.alignInputs element.inputs arguments

end ContractAbi
