import ContractAbi.Address
import ContractAbi.Proofs.Bytes.Hex

/-!
# Checksummed text

The checksum stands in the case of the letters alone, so an address is read back from its text
(`Address.ofChecksummed?_eq_some_iff`). Only that text stands for it.
-/

namespace ContractAbi.Address

/-- The digit is what remains of a checksum digit without its case. -/
theorem toLower_checksumDigit {value : Nat} (small : value < 16) (hashDigit : Char) :
    (checksumDigit (Hex.digit value) hashDigit).toLower = Hex.digit value := by
  have checked : ∀ value : Fin 16, (Hex.digit value).toUpper.toLower = Hex.digit value ∧
      (Hex.digit value).toLower = Hex.digit value := by decide
  obtain ⟨capital, small⟩ := checked ⟨value, small⟩
  unfold checksumDigit
  split
  · exact capital
  · exact small

/-- The digits are what remains of checksum digits without their case, as long as there is a digit of
the hash for each. -/
theorem map_toLower_checksumDigit {digits hashDigits : List Char}
    (written : ∀ char ∈ digits, ∃ value < 16, char = Hex.digit value)
    (enough : digits.length ≤ hashDigits.length) :
    (List.zipWith checksumDigit digits hashDigits).map Char.toLower = digits := by
  induction digits generalizing hashDigits with
  | nil => rfl
  | cons digit digits inductionHypothesis =>
    cases hashDigits with
    | nil => cases enough
    | cons hashDigit hashDigits =>
      obtain ⟨⟨value, small, rfl⟩, others⟩ := List.forall_mem_cons.1 written
      rw [List.zipWith_cons_cons, List.map_cons, toLower_checksumDigit small,
        inductionHypothesis others (Nat.le_of_succ_le_succ enough)]

/-- The text of an address spells its bytes. -/
theorem decode_checksummed (address : Address) :
    Hex.decode address.checksummed.toList = .ok address.bytes.1 := by
  rw [checksummed, String.toList_ofList]
  apply Hex.decode_marked_eq_ok_iff.2
  apply map_toLower_checksumDigit
  · exact fun _ => Hex.exists_digit_of_mem_digits
  · rw [Hex.length_digits, Hex.length_digits, address.bytes.2, SizedBytes.length_val]
    decide

/-- An address is read back from its text, and from no other. -/
theorem ofChecksummed?_eq_some_iff {text : String} {address : Address} :
    ofChecksummed? text = some address ↔ text = address.checksummed := by
  constructor
  · intro read
    unfold ofChecksummed? at read
    split at read
    · cases read
    · obtain ⟨-, same⟩ := Option.filter_eq_some_iff.1 read
      exact (of_decide_eq_true same).symm
  · rintro rfl
    have sized : ofBytes? address.bytes.1 = some address := by
      simp [ofBytes?, SizedBytes.ofBytes?]
    simp [ofChecksummed?, decode_checksummed, sized, Option.filter]

end ContractAbi.Address
