import ContractAbi.Interface
import ContractAbi.Keyed

/-!
# Catalogs

A catalog holds the declarations of a contract by kind and name. Named declarations are kept in
groups in name order, within which they keep the order of their arrival; of the constructor, the
fallback function and the receive function only the last one is kept.
-/

namespace ContractAbi

/-- The declarations of a contract by kind and name. -/
structure Catalog where
  constructor : Option ConstructorDeclaration
  fallback : Option StateMutability
  receive : Option StateMutability
  /-- The functions of each name. -/
  functions : Keyed (List FunctionDeclaration)
  /-- The events of each name. -/
  events : Keyed (List Event)
  /-- The errors of each name. -/
  errors : Keyed (List ErrorDeclaration)

namespace Catalog

/-- A catalog without declarations. -/
def empty : Catalog := ⟨none, none, none, [], [], []⟩

/-- The groups with one more member under a name. -/
def append {α : Type} (name : String) (member : α) (groups : Keyed (List α)) : Keyed (List α) :=
  groups.update name fun group => group.getD [] ++ [member]

/-- The catalog with one more declaration. -/
def add (catalog : Catalog) : Element → Catalog
  | .function declaration =>
    { catalog with functions := append declaration.name declaration catalog.functions }
  | .constructor declaration => { catalog with constructor := some declaration }
  | .fallback mutability => { catalog with fallback := some mutability }
  | .receive mutability => { catalog with receive := some mutability }
  | .event declaration =>
    { catalog with events := append declaration.name declaration catalog.events }
  | .error declaration =>
    { catalog with errors := append declaration.name declaration catalog.errors }

/-- The catalog of declarations that arrive in order. -/
def ofElements (elements : List Element) : Catalog := elements.foldl add empty

/-- The members of all groups as elements, in name order. -/
def members {α : Type} (element : α → Element) (groups : Keyed (List α)) : List Element :=
  groups.flatMap fun (_, group) => group.map element

/-- The interface of a catalog: the constructor, the fallback and the receive function, then the
functions, the events and the errors. -/
def toInterface (catalog : Catalog) : Interface where
  elements :=
    (catalog.constructor.map Element.constructor).toList ++
    (catalog.fallback.map Element.fallback).toList ++
    (catalog.receive.map Element.receive).toList ++
    members Element.function catalog.functions ++
    members Element.event catalog.events ++
    members Element.error catalog.errors

end Catalog

end ContractAbi
