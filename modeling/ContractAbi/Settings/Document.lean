import ContractAbi.Keyed
import ContractAbi.Settings.Setting

/-!
# Settings documents

A document is a tree of tables. No key may be defined twice, a table may be opened by one header
only, and a dotted key may go on with tables that have no header of their own but not with the
others.
-/

namespace ContractAbi

/-- How a table came to be. -/
inductive TableOrigin where
  /-- It stands above a table with a header, and may still get a header of its own. -/
  | implied
  | header
  | dotted
  deriving DecidableEq

/-- What stands under a key of a document. -/
inductive DocumentNode where
  | value (setting : Setting)
  | table (origin : TableOrigin) (entries : List (String × DocumentNode))
  /-- A list of tables under one header, of which only the last can still grow. -/
  | tables (last : List (String × DocumentNode))

/-- The nodes under the keys of a table. -/
abbrev Document := Keyed DocumentNode

mutual
/-- The setting that a node amounts to. -/
def DocumentNode.setting? : DocumentNode → Option Setting
  | .value setting => some setting
  | .table _ entries => do Setting.ofTable? (← Document.settings? entries)
  | .tables last => do
    let _ ← Setting.ofTable? (← Document.settings? last)
    return .sequence

/-- The settings that the nodes of a table amount to. -/
def Document.settings? : Document → Option (Keyed Setting)
  | [] => some []
  | (key, node) :: entries => do return (key, ← node.setting?) :: (← Document.settings? entries)
end

namespace Document

/-- Changes the table that a header path leads to, and implies the tables that are missing. -/
def descend (change : Document → Option Document) : List String → Document → Option Document
  | [], document => change document
  | key :: path, document =>
    match document.lookup key with
    | none => do
      return Keyed.insert key (.table .implied (← descend change path [])) document
    | some (.table origin entries) => do
      return Keyed.insert key (.table origin (← descend change path entries)) document
    | some (.tables last) => do
      return Keyed.insert key (.tables (← descend change path last)) document
    | some (.value _) => none

/-- Defines a dotted key. No table on the way may have a header, and the table that holds its last
part may not be in a list either. -/
def define (setting : Setting) : List String → Document → Option Document
  | [], _ => none
  | [key], document =>
    match document.lookup key with
    | none => some (Keyed.insert key (.value setting) document)
    | some _ => none
  | key :: next :: path, document =>
    match document.lookup key with
    | none => do
      return Keyed.insert key (.table .dotted (← define setting (next :: path) [])) document
    | some (.table .header _) | some (.value _) => none
    | some (.table origin entries) => do
      return Keyed.insert key (.table origin (← define setting (next :: path) entries)) document
    | some (.tables last) => do
      if path.isEmpty then none
      return Keyed.insert key (.tables (← define setting (next :: path) last)) document

/-- Opens the table of a header. -/
def openTable (path : List String) (key : String) (document : Document) : Option Document :=
  descend
    (fun entries =>
      match entries.lookup key with
      | none => some (Keyed.insert key (.table .header []) entries)
      | some (.table .implied inner) => some (Keyed.insert key (.table .header inner) entries)
      | some _ => none)
    path document

/-- Opens one more table of a list of tables, of which the last is complete now. -/
def appendTable (path : List String) (key : String) (document : Document) : Option Document :=
  descend
    (fun entries =>
      match entries.lookup key with
      | none => some (Keyed.insert key (.tables []) entries)
      | some (.tables last) => do
        let _ ← (DocumentNode.tables last).setting?
        return Keyed.insert key (.tables []) entries
      | some _ => none)
    path document

end Document

end ContractAbi
