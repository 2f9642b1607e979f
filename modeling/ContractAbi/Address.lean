import ContractAbi.Bytes.Hex
import ContractAbi.Bytes.Keccak

/-!
# Addresses

An address is twenty bytes. Its text carries a checksum in the case of its letters: a letter is a
capital exactly when the digit of the hash at its place is eight or more. Only text in that exact
form is read back.
-/

namespace ContractAbi

/-- The place of an account: twenty bytes. -/
structure Address where
  bytes : SizedBytes 20
  deriving DecidableEq

namespace Address

/-- The address of twenty bytes. -/
def ofBytes? (bytes : Bytes) : Option Address :=
  (SizedBytes.ofBytes? 20 bytes).map fun sized => ⟨sized⟩

/-- A digit in the case that the checksum digit demands. -/
def checksumDigit (digit hashDigit : Char) : Char :=
  if '8' ≤ hashDigit then digit.toUpper else digit

/-- The text of an address: `0x` and forty digits in checksum case. -/
def checksummed (address : Address) : String :=
  let digits := Hex.digits address.bytes.1
  let hashDigits := Hex.digits (Keccak.hash (digits.map fun char => UInt8.ofNat char.toNat)).1
  String.ofList ('0' :: 'x' :: List.zipWith checksumDigit digits hashDigits)

/-- The address whose text this is, in exact checksum case. -/
def ofChecksummed? (text : String) : Option Address :=
  match Hex.decode text.toList with
  | .error _ => none
  | .ok bytes => (ofBytes? bytes).filter fun address => address.checksummed = text

end Address

end ContractAbi
