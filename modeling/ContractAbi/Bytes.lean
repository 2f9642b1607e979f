/-!
# Byte strings

Byte strings are lists of bytes. A `SizedBytes count` carries the proof of its length, and the
big-endian readings of a byte string as a number and of a number as bytes invert each other.
-/

namespace ContractAbi

/-- A byte string of any length. -/
abbrev Bytes := List UInt8

namespace Bytes

/-- A run of zero bytes. -/
def zeros (count : Nat) : Bytes := List.replicate count 0

/-- The last `count` bytes of a number written big-endian. -/
def ofNat : (count number : Nat) → Bytes
  | 0, _ => []
  | count + 1, number => ofNat count (number / 256) ++ [UInt8.ofNat number]

/-- The number that a byte string spells big-endian. -/
def toNat (bytes : Bytes) : Nat :=
  bytes.foldl (fun number byte => 256 * number + byte.toNat) 0

@[simp] theorem length_zeros (count : Nat) : (zeros count).length = count := by
  simp [zeros]

@[simp] theorem length_ofNat (count number : Nat) : (ofNat count number).length = count := by
  induction count generalizing number with
  | zero => rfl
  | succ count inductionHypothesis => simp [ofNat, inductionHypothesis]

@[simp] theorem toNat_nil : toNat [] = 0 := rfl

theorem toNat_append_singleton (bytes : Bytes) (byte : UInt8) :
    toNat (bytes ++ [byte]) = 256 * toNat bytes + byte.toNat := by
  simp [toNat, List.foldl_append]

/-- One byte more holds 256 times as many numbers. -/
theorem shiftLeft_succ (count : Nat) : 1 <<< (8 * (count + 1)) = 256 * 1 <<< (8 * count) := by
  rw [Nat.mul_add, Nat.shiftLeft_add, Nat.shiftLeft_eq _ (8 * 1), Nat.mul_comm]

/-- Reading back the last `count` bytes of a number loses exactly its higher part. -/
theorem toNat_ofNat (count number : Nat) :
    toNat (ofNat count number) = number % 1 <<< (8 * count) := by
  induction count generalizing number with
  | zero => simp [ofNat, Nat.mod_one]
  | succ count inductionHypothesis =>
    rw [ofNat, toNat_append_singleton, inductionHypothesis, shiftLeft_succ, Nat.mod_mul]
    simp [UInt8.toNat_ofNat']
    omega

theorem toNat_lt (bytes : Bytes) : toNat bytes < 1 <<< (8 * bytes.length) := by
  have general : ∀ (bytes : Bytes) (number : Nat),
      bytes.foldl (fun number byte => 256 * number + byte.toNat) number
        < 1 <<< (8 * bytes.length) * (number + 1) := by
    intro bytes
    induction bytes with
    | nil => intro number; simp
    | cons byte bytes inductionHypothesis =>
      intro number
      have step := inductionHypothesis (256 * number + byte.toNat)
      have bound : 256 * number + byte.toNat + 1 ≤ 256 * (number + 1) := by
        have := byte.toNat_lt
        omega
      have scaled := Nat.mul_le_mul_left (1 <<< (8 * bytes.length)) bound
      rw [List.foldl_cons, List.length_cons, shiftLeft_succ, Nat.mul_assoc, Nat.mul_left_comm]
      exact Nat.lt_of_lt_of_le step scaled
  simpa [toNat] using general bytes 0

end Bytes

/-- A byte string of exactly `count` bytes. -/
abbrev SizedBytes (count : Nat) := {bytes : Bytes // bytes.length = count}

namespace SizedBytes

@[simp] theorem length_val {count : Nat} (bytes : SizedBytes count) : bytes.1.length = count :=
  bytes.2

/-- The byte string itself, when it has the demanded length. -/
def ofBytes? (count : Nat) (bytes : Bytes) : Option (SizedBytes count) :=
  if sized : bytes.length = count then some ⟨bytes, sized⟩ else none

/-- The first `count` bytes, filled up with zeros on the right. -/
def padRight (count : Nat) (bytes : Bytes) : SizedBytes count :=
  ⟨(bytes ++ Bytes.zeros count).take count, by simp⟩

/-- The last `count` bytes of a number written big-endian. -/
def ofNat (count number : Nat) : SizedBytes count := ⟨Bytes.ofNat count number, by simp⟩

/-- The number that the bytes spell big-endian. -/
def toNat {count : Nat} (bytes : SizedBytes count) : Nat := Bytes.toNat bytes.1

theorem toNat_lt {count : Nat} (bytes : SizedBytes count) : bytes.toNat < 1 <<< (8 * count) := by
  simpa [toNat, bytes.2] using Bytes.toNat_lt bytes.1

theorem toNat_ofNat (count number : Nat) :
    (ofNat count number).toNat = number % 1 <<< (8 * count) :=
  Bytes.toNat_ofNat count number

/-- Nothing is lost or added but zeros when the bytes fit. -/
theorem padRight_of_le {count : Nat} {bytes : Bytes} (fits : bytes.length ≤ count) :
    (padRight count bytes).1 = bytes ++ Bytes.zeros (count - bytes.length) := by
  simp [padRight, List.take_append, Bytes.zeros, List.take_of_length_le fits]

end SizedBytes

/-- A slot of encoded data: thirty-two bytes. -/
abbrev Word := SizedBytes 32

/-- The code that opens a call: the first four bytes of a signature hash. -/
abbrev Selector := SizedBytes 4

end ContractAbi
