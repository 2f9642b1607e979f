import ContractAbi.Bytes.Keccak
import ContractAbi.Interface.Element
import ContractAbi.Text.Utf8

/-!
# Signature hashes

The hash of a name with its hashed input types tells a function, error or event from all others.
Its first four bytes open the calls of a function or error.
-/

namespace ContractAbi

/-- The hash of a name with the hashed type texts of its inputs. -/
def signatureHash (name : String) (inputs : List Param) : Word :=
  let types := ",".intercalate (inputs.map Param.hashedType)
  Keccak.hash (Text.utf8 (name ++ "(" ++ types ++ ")"))

/-- The hash that opens the topics of an event's logs. -/
def Event.signatureHash (event : Event) : Word := ContractAbi.signatureHash event.name event.params

/-- The first four bytes of a hash. -/
def Selector.ofHash (hash : Word) : Selector := ⟨hash.1.take 4, by simp [hash.2]⟩

/-- The selector of an element; what has no name has no selector. -/
def Element.selector? (element : Element) : Option Selector :=
  element.name?.map fun name => Selector.ofHash (signatureHash name element.inputs)

end ContractAbi
