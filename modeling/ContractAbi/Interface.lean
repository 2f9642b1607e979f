import ContractAbi.Interface.Element

/-!
# Interfaces

An interface is the list of a contract's declarations in order.
-/

namespace ContractAbi

/-- The declarations of a contract in order. -/
structure Interface where
  elements : List Element
  deriving DecidableEq

namespace Interface

/-- The number of declarations. -/
def size (interface : Interface) : Nat := interface.elements.length

/-- Whether nothing is declared. -/
def isEmpty (interface : Interface) : Bool := interface.elements.isEmpty

/-- The elements of one kind in order. -/
def ofKind (interface : Interface) (kind : ElementKind) : List Element :=
  interface.elements.filter fun element => element.kind = kind

/-- The functions, events and errors with exactly the given name in order. -/
def named (interface : Interface) (name : String) : List Element :=
  interface.elements.filter fun element => element.kind.isNamed && element.name? = some name

/-- The declared events in order. -/
def events (interface : Interface) : List Event := interface.elements.filterMap Element.event?

end Interface

end ContractAbi
