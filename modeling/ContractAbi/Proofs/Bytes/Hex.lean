import ContractAbi.Bytes.Hex
import ContractAbi.Proofs.Outcome
import Mathlib

/-!
# Numbers in hexadecimal digits

Digits of either case spell a number, and with it the bytes of that number. Reading takes digits in
pairs and nothing else (`Hex.decodeDigits_eq_ok_iff`).
-/

namespace ContractAbi

namespace Bytes

/-- A byte string is what its own number spells in as many bytes. -/
theorem ofNat_toNat (bytes : Bytes) : ofNat bytes.length (toNat bytes) = bytes := by
  induction bytes using List.reverseRecOn with
  | nil => rfl
  | append_singleton bytes byte inductionHypothesis =>
    have small := byte.toNat_lt
    have front : (256 * toNat bytes + byte.toNat) / 256 = toNat bytes := by omega
    have last : UInt8.ofNat (256 * toNat bytes + byte.toNat) = byte := by
      apply UInt8.toNat_inj.1
      rw [UInt8.toNat_ofNat']
      omega
    rw [List.length_append, toNat_append_singleton, List.length_singleton, ofNat, front, last,
      inductionHypothesis]

/-- Byte strings of one length differ in their numbers. -/
theorem toNat_injective {left right : Bytes} (sameLength : left.length = right.length)
    (sameNumber : toNat left = toNat right) : left = right := by
  rw [← ofNat_toNat left, sameLength, sameNumber, ofNat_toNat]

end Bytes

namespace Hex

/-- The number with one more digit behind it. -/
def shiftIn (number : Nat) (char : Char) : Option Nat :=
  (digitValue? char).map (16 * number + ·)

/-- The number that digits of either case spell. -/
def number? (digits : List Char) : Option Nat := digits.foldlM shiftIn 0

/-- Digits spell the bytes of their number, of which there is one for each pair of digits; a digit
too many stands for a byte by itself at the front. -/
def Spells (digits : List Char) (bytes : Bytes) : Prop :=
  number? digits = some (Bytes.toNat bytes) ∧ bytes.length = (digits.length + 1) / 2

/-! ## Single digits -/

/-- The value of a digit by its code point. -/
theorem digitValue?_eq (char : Char) :
    digitValue? char =
      if 48 ≤ char.toNat ∧ char.toNat ≤ 57 then some (char.toNat - 48)
      else if 97 ≤ char.toNat ∧ char.toNat ≤ 102 then some (char.toNat - 87)
      else if 65 ≤ char.toNat ∧ char.toNat ≤ 70 then some (char.toNat - 55)
      else none := by
  simp only [digitValue?, Char.le_def, UInt32.le_iff_toNat_le]
  rfl

theorem digitValue?_lt {char : Char} {value : Nat} (read : digitValue? char = some value) :
    value < 16 := by
  rw [digitValue?_eq] at read
  split_ifs at read <;> cases read <;> omega

theorem toNat_toLower (char : Char) :
    char.toLower.toNat =
      if 65 ≤ char.toNat ∧ char.toNat ≤ 90 then char.toNat + 32 else char.toNat := by
  have capital : char.val ≥ 'A'.val ∧ char.val ≤ 'Z'.val ↔
      65 ≤ char.toNat ∧ char.toNat ≤ 90 := by
    simp only [ge_iff_le, UInt32.le_iff_toNat_le]
    rfl
  by_cases isCapital : 65 ≤ char.toNat ∧ char.toNat ≤ 90
  · rw [if_pos isCapital, Char.toLower, dif_pos (capital.2 isCapital)]
    have sum : (char.val + ('a'.val - 'A'.val)).toNat = (char.toNat + 32) % 4294967296 :=
      UInt32.toNat_add _ _
    exact sum.trans (Nat.mod_eq_of_lt (by omega))
  · rw [if_neg isCapital, Char.toLower, dif_neg (mt capital.1 isCapital)]

/-- The case of a digit does not count. -/
theorem digitValue?_toLower (char : Char) : digitValue? char.toLower = digitValue? char := by
  rw [digitValue?_eq, digitValue?_eq, toNat_toLower]
  grind

/-- Digits take one byte each, so their number is the length of the text. -/
theorem byteLength_of_digits {digits : List Char}
    (areDigits : ∀ char ∈ digits, (digitValue? char).isSome = true) :
    byteLength digits = digits.length := by
  induction digits with
  | nil => rfl
  | cons char digits inductionHypothesis =>
    obtain ⟨first, others⟩ := List.forall_mem_cons.1 areDigits
    have narrow : char.utf8Size = 1 := by
      obtain ⟨value, read⟩ := Option.isSome_iff_exists.1 first
      have small : char.toNat ≤ 127 := by
        rw [digitValue?_eq] at read
        split_ifs at read <;> omega
      exact Char.utf8Size_eq_one_iff.2 (UInt32.le_iff_toNat_le.2 small)
    rw [List.length_cons, ← inductionHypothesis others, Nat.add_comm, ← narrow]
    rfl

/-! ## Runs of digits -/

/-- A character is a digit whatever number stands in front of it. -/
theorem digits_of_foldlM {start number : Nat} {digits : List Char}
    (spelled : digits.foldlM shiftIn start = some number) :
    ∀ char ∈ digits, (digitValue? char).isSome = true := by
  induction digits generalizing start with
  | nil => simp
  | cons char digits inductionHypothesis =>
    rw [List.foldlM_cons, Option.bind_eq_bind, Option.bind_eq_some_iff] at spelled
    obtain ⟨next, first, others⟩ := spelled
    obtain ⟨value, read, -⟩ := Option.map_eq_some_iff.1 first
    exact List.forall_mem_cons.2 ⟨by simp [read], inductionHypothesis others⟩

/-- Bytes that are read spell the number of their digits, behind whatever stands in front. -/
theorem foldlM_of_decodeDigits {position : Nat} {digits : List Char} {bytes : Bytes}
    (read : decodeDigits position digits = .ok bytes) (start : Nat) :
    digits.length = 2 * bytes.length ∧ digits.foldlM shiftIn start =
      some (bytes.foldl (fun number byte => 256 * number + byte.toNat) start) := by
  fun_induction decodeDigits position digits generalizing bytes start with
  | case1 =>
    obtain rfl := Except.ok.inj read
    exact ⟨rfl, rfl⟩
  | case2 => cases read
  | case3 => cases read
  | case4 => cases read
  | case5 => cases read
  | case6 position high low rest highValue lowValue readLow readHigh inductionHypothesis =>
    obtain ⟨others, readOthers, rfl⟩ := Outcome.map_eq_ok.1 read
    have highSmall := digitValue?_lt readHigh
    have lowSmall := digitValue?_lt readLow
    have pair : 256 * start + (UInt8.ofNat (16 * highValue + lowValue)).toNat =
        16 * (16 * start + highValue) + lowValue := by
      rw [UInt8.toNat_ofNat']
      omega
    obtain ⟨counted, spelled⟩ := inductionHypothesis readOthers
      (16 * (16 * start + highValue) + lowValue)
    constructor
    · rw [List.length_cons, List.length_cons, List.length_cons, counted]
      omega
    · simp only [List.foldlM_cons, shiftIn, readHigh, readLow, Option.map_some,
        Option.bind_eq_bind, Option.bind_some, spelled, List.foldl_cons, pair]

/-- Digits in pairs are read, whatever they are. -/
theorem exists_decodeDigits {digits : List Char} (position : Nat)
    (areDigits : ∀ char ∈ digits, (digitValue? char).isSome = true)
    (even : digits.length % 2 = 0) : ∃ bytes, decodeDigits position digits = .ok bytes := by
  fun_induction decodeDigits position digits with
  | case1 => exact ⟨[], rfl⟩
  | case2 => cases even
  | case3 => cases even
  | case4 => simp_all
  | case5 => simp_all
  | case6 position high low rest highValue lowValue readLow readHigh inductionHypothesis =>
    have others : ∀ char ∈ rest, (digitValue? char).isSome = true := fun char member =>
      areDigits char (by simp [member])
    have evenRest : rest.length % 2 = 0 := by
      simp only [List.length_cons] at even
      omega
    obtain ⟨bytes, read⟩ := inductionHypothesis others evenRest
    exact ⟨_, by rw [read]; rfl⟩

/-- An odd number of characters is the fault only when all of them are digits. -/
theorem odd_of_decodeDigits {position : Nat} {digits : List Char}
    (read : decodeDigits position digits = .error .oddLength) :
    (∀ char ∈ digits, (digitValue? char).isSome = true) ∧ digits.length % 2 = 1 := by
  fun_induction decodeDigits position digits with
  | case1 => cases read
  | case2 => cases read
  | case3 position char value readChar => simp [readChar]
  | case4 => cases read
  | case5 => cases read
  | case6 position high low rest highValue lowValue readLow readHigh inductionHypothesis =>
    obtain ⟨others, odd⟩ := inductionHypothesis (Outcome.map_eq_error.1 read)
    have first : (digitValue? high).isSome = true := by simp [readHigh]
    have second : (digitValue? low).isSome = true := by simp [readLow]
    constructor
    · exact List.forall_mem_cons.2 ⟨first, List.forall_mem_cons.2 ⟨second, others⟩⟩
    · simp only [List.length_cons]
      omega

/-- Digits are read in pairs, and as the bytes that they spell. -/
theorem decodeDigits_eq_ok_iff {position : Nat} {digits : List Char} {bytes : Bytes} :
    decodeDigits position digits = .ok bytes ↔ digits.length % 2 = 0 ∧ Spells digits bytes := by
  constructor
  · intro read
    obtain ⟨counted, spelled⟩ := foldlM_of_decodeDigits read 0
    exact ⟨by omega, spelled, by omega⟩
  · rintro ⟨even, spelled, counted⟩
    obtain ⟨others, read⟩ := exists_decodeDigits position (digits_of_foldlM spelled) even
    obtain ⟨othersCounted, othersSpelled⟩ := foldlM_of_decodeDigits read 0
    have sameNumber : Bytes.toNat others = Bytes.toNat bytes :=
      Option.some.inj (othersSpelled.symm.trans spelled)
    rw [read, Bytes.toNat_injective (by omega) sameNumber]

/-! ## Spellings of the same bytes -/

/-- A zero that completes the first pair changes nothing. -/
theorem spells_zero_cons {digits : List Char} {bytes : Bytes} (odd : digits.length % 2 = 1) :
    Spells ('0' :: digits) bytes ↔ Spells digits bytes := by
  have sameNumber : number? ('0' :: digits) = number? digits := rfl
  rw [Spells, Spells, sameNumber, List.length_cons]
  have sameCount : (digits.length + 1 + 1) / 2 = (digits.length + 1) / 2 := by omega
  rw [sameCount]

/-- Bytes are spelled by their own digits in any case. -/
theorem spells_of_toLower {digits : List Char} {bytes : Bytes}
    (written : digits.map Char.toLower = Hex.digits bytes) :
    digits.length % 2 = 0 ∧ Spells digits bytes := by
  obtain ⟨even, spelled, counted⟩ := decodeDigits_eq_ok_iff.1 (decodeDigits_digits 0 bytes)
  rw [← written, List.length_map] at even counted
  have sameStep : (fun number char => shiftIn number (Char.toLower char)) = shiftIn := by
    funext number char
    rw [shiftIn, digitValue?_toLower, shiftIn]
  have sameNumber : number? (digits.map Char.toLower) = number? digits := by
    rw [number?, List.foldlM_map, sameStep, number?]
  rw [← written, sameNumber] at spelled
  exact ⟨even, spelled, counted⟩

/-- A zero at the front of the first pair may be left out. -/
theorem spells_of_zero_toLower {digits : List Char} {bytes : Bytes}
    (written : '0' :: digits.map Char.toLower = Hex.digits bytes) : Spells digits bytes := by
  have whole : ('0' :: digits).map Char.toLower = Hex.digits bytes := written
  obtain ⟨even, spelled⟩ := spells_of_toLower whole
  rw [List.length_cons] at even
  exact (spells_zero_cons (by omega)).1 spelled

theorem length_digits (bytes : Bytes) : (digits bytes).length = 2 * bytes.length :=
  (foldlM_of_decodeDigits (decodeDigits_digits 0 bytes) 0).1

/-- Every digit that is written has a value below sixteen. -/
theorem exists_digit_of_mem_digits {bytes : Bytes} {char : Char} (written : char ∈ digits bytes) :
    ∃ value < 16, char = digit value := by
  obtain ⟨byte, -, isHalf⟩ := List.mem_flatMap.1 written
  have small := byte.toNat_lt
  simp only [pair, List.mem_cons, List.not_mem_nil, or_false] at isHalf
  rcases isHalf with rfl | rfl
  · exact ⟨_, by omega, rfl⟩
  · exact ⟨_, by omega, rfl⟩

/-- A digit is that of its value, but for its case. -/
theorem toLower_of_digitValue? {char : Char} {value : Nat}
    (read : digitValue? char = some value) : char.toLower = digit value := by
  have checked : ∀ code : Fin 128, ∀ value ∈ digitValue? (Char.ofNat code.1),
      (Char.ofNat code.1).toLower = digit value := by decide
  have small : char.toNat < 128 := by
    rw [digitValue?_eq] at read
    split_ifs at read <;> omega
  have whole : Char.ofNat char.toNat = char := Char.ofNat_toNat char
  have result := checked ⟨char.toNat, small⟩ value
  rw [whole] at result
  exact result read

/-- Digits that are read are those of the bytes, but for their case. -/
theorem toLower_of_decodeDigits {position : Nat} {digits : List Char} {bytes : Bytes}
    (read : decodeDigits position digits = .ok bytes) :
    digits.map Char.toLower = Hex.digits bytes := by
  fun_induction decodeDigits position digits generalizing bytes with
  | case1 =>
    obtain rfl := Except.ok.inj read
    rfl
  | case2 => cases read
  | case3 => cases read
  | case4 => cases read
  | case5 => cases read
  | case6 position high low rest highValue lowValue readLow readHigh inductionHypothesis =>
    obtain ⟨others, readOthers, rfl⟩ := Outcome.map_eq_ok.1 read
    have highSmall := digitValue?_lt readHigh
    have lowSmall := digitValue?_lt readLow
    have byte : (UInt8.ofNat (16 * highValue + lowValue)).toNat = 16 * highValue + lowValue := by
      rw [UInt8.toNat_ofNat']
      omega
    have halves : pair (UInt8.ofNat (16 * highValue + lowValue)) =
        [digit highValue, digit lowValue] := by
      rw [pair, byte]
      congr 2
      · omega
      · congr 2
        omega
    rw [List.map_cons, List.map_cons, toLower_of_digitValue? readHigh,
      toLower_of_digitValue? readLow, inductionHypothesis readOthers, Hex.digits, Hex.digits,
      List.flatMap_cons, halves]
    rfl

/-- Behind `0x`, bytes are read from their own digits in any case, and from nothing else. -/
theorem decode_marked_eq_ok_iff {digits : List Char} {bytes : Bytes} :
    decode ('0' :: 'x' :: digits) = .ok bytes ↔ digits.map Char.toLower = Hex.digits bytes := by
  constructor
  · intro read
    unfold decode at read
    split at read
    · cases read
    · exact toLower_of_decodeDigits read
  · intro written
    obtain ⟨even, spelled⟩ := spells_of_toLower written
    have counted : byteLength ('0' :: 'x' :: digits) = 1 + (1 + digits.length) := by
      rw [← byteLength_of_digits (digits_of_foldlM spelled.1)]
      rfl
    rw [decode, if_neg (by omega)]
    exact decodeDigits_eq_ok_iff.2 ⟨even, spelled⟩

end Hex

end ContractAbi
