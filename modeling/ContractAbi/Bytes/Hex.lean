import ContractAbi.Bytes
import ContractAbi.Text.Quoted

/-!
# Hexadecimal text

Bytes are written as two lowercase digits each. Reading takes digits of either case behind at most
one marker, and names the first character that is no digit.
-/

namespace ContractAbi.Hex

/-- Why a text does not spell bytes. -/
inductive Fault where
  /-- The text takes an odd number of bytes. -/
  | oddLength
  /-- The byte at `position`, counted behind the marker, is no digit. -/
  | invalidDigit (byte : UInt8) (position : Nat)
  deriving DecidableEq, Repr

/-- The wording of a fault, which shows the offending byte as the character of that code point. -/
def Fault.message : Fault → String
  | .oddLength => "odd number of digits"
  | .invalidDigit byte position =>
    "invalid character " ++ Text.Quoted.char (Char.ofNat byte.toNat) ++ " at position " ++
      toString position

/-- The lowercase digit of a number below sixteen. -/
def digit (value : Nat) : Char :=
  if value < 10 then Char.ofNat (48 + value) else Char.ofNat (87 + value)

/-- The two digits of a byte, the high half first. -/
def pair (byte : UInt8) : List Char := [digit (byte.toNat / 16), digit (byte.toNat % 16)]

/-- The digits of a byte string. -/
def digits (bytes : Bytes) : List Char := bytes.flatMap pair

/-- A byte string in digits behind the marker `0x`. -/
def encode (bytes : Bytes) : String := String.ofList ('0' :: 'x' :: digits bytes)

/-- The value of a digit of either case. -/
def digitValue? (char : Char) : Option Nat :=
  if '0' ≤ char ∧ char ≤ '9' then some (char.toNat - 48)
  else if 'a' ≤ char ∧ char ≤ 'f' then some (char.toNat - 87)
  else if 'A' ≤ char ∧ char ≤ 'F' then some (char.toNat - 55)
  else none

/-- The fault of a character that is no digit: its first byte is the one to blame. -/
def invalid (char : Char) (position : Nat) : Fault :=
  .invalidDigit ((String.utf8EncodeChar char).headD 0) position

/-- The bytes that pairs of digits spell. Everything before a fault is a digit and takes one byte,
so the position of a character is also that of its first byte. -/
def decodeDigits (position : Nat) : List Char → Except Fault Bytes
  | [] => .ok []
  | [char] =>
    match digitValue? char with
    | none => .error (invalid char position)
    | some _ => .error .oddLength
  | high :: low :: rest =>
    match digitValue? high, digitValue? low with
    | none, _ => .error (invalid high position)
    | some _, none => .error (invalid low (position + 1))
    | some highValue, some lowValue =>
      (UInt8.ofNat (16 * highValue + lowValue) :: ·) <$> decodeDigits (position + 2) rest

/-- The number of bytes that a text takes in UTF-8. -/
def byteLength (text : List Char) : Nat :=
  text.foldr (fun char length => char.utf8Size + length) 0

/-- The text behind its marker `0x` or `0X`, if it has one. -/
def dropMarker : List Char → List Char
  | '0' :: 'x' :: rest => rest
  | '0' :: 'X' :: rest => rest
  | text => text

/-- The bytes that a text spells behind at most one marker. -/
def decode (text : List Char) : Except Fault Bytes :=
  if byteLength text % 2 = 1 then .error .oddLength else decodeDigits 0 (dropMarker text)

theorem digitValue?_digit {value : Nat} (small : value < 16) :
    digitValue? (digit value) = some value := by
  have checked : ∀ value : Fin 16, digitValue? (digit value) = some value.1 := by decide
  exact checked ⟨value, small⟩

/-- Written digits read back as the bytes they came from. -/
theorem decodeDigits_digits (position : Nat) (bytes : Bytes) :
    decodeDigits position (digits bytes) = .ok bytes := by
  induction bytes generalizing position with
  | nil => rfl
  | cons byte bytes inductionHypothesis =>
    have high : byte.toNat / 16 < 16 := by have := byte.toNat_lt; omega
    have low : byte.toNat % 16 < 16 := Nat.mod_lt _ (by decide)
    have whole : 16 * (byte.toNat / 16) + byte.toNat % 16 = byte.toNat := Nat.div_add_mod _ 16
    have rest := inductionHypothesis (position + 2)
    simp only [digits] at rest
    simp [digits, pair, decodeDigits, digitValue?_digit high, digitValue?_digit low, rest, whole,
      Functor.map, Except.map]

end ContractAbi.Hex
