import ContractAbi.Argument.Coercion
import Mathlib

/-!
# Coercion by steps

Three steps of a coercion have no result outside of their range: bytes are copied into a word, so
many bytes are taken as a whole, and a bound is shifted so that one bit is left for the sign. Here
each of them breaks down where it has no result. None ever does, as the types bound the widths and
the sizes (`Argument.coerceBySteps_eq`).
-/

namespace ContractAbi

/-- A step that has no result. -/
inductive Breakdown where
  /-- More bytes are copied into a word than it holds. -/
  | copy (count : Nat)
  /-- Other than the demanded number of bytes are taken as a whole. -/
  | whole (count : Nat)
  /-- A bound is shifted by less than no bit, or by a whole word. -/
  | shift (bits : Nat)
  deriving DecidableEq

/-- A result or none, unless a step on the way broke down. -/
abbrev Attempt := OptionT (Except Breakdown)

namespace Attempt

variable {α β : Type}

/-- An attempt on which nothing broke down. -/
def completed (result : Option α) : Attempt α := OptionT.mk (.ok result)

/-- An attempt that ended at a step without a result. -/
def brokenDown (step : Breakdown) : Attempt α := OptionT.mk (.error step)

theorem some_bind (value : α) (next : α → Attempt β) :
    (completed (some value) >>= next) = next value := rfl

@[simp] theorem completed_bind (result : Option α) (next : α → Option β) :
    (completed result >>= fun value => completed (next value)) = completed (result.bind next) := by
  cases result <;> rfl

@[simp] theorem map_completed (change : α → β) (result : Option α) :
    change <$> completed result = completed (result.map change) := by
  cases result <;> rfl

/-- When no step breaks down on any item, none does on all of them. -/
theorem mapM_completed {attempt : α → Attempt β} {change : α → Option β}
    (each : ∀ item, attempt item = completed (change item)) (items : List α) :
    items.mapM attempt = completed (items.mapM change) := by
  induction items with
  | nil => rfl
  | cons item items inductionHypothesis =>
    simp only [List.mapM_cons, each, inductionHypothesis]
    cases change item with
    | none => rfl
    | some first => cases items.mapM change <;> rfl

end Attempt

namespace Argument

open Attempt (completed brokenDown)

/-- Copies bytes to the front of a word of zeros. -/
def copyIntoWord (content : Bytes) : Attempt Word :=
  if fits : content.length ≤ 32 then
    pure ⟨content ++ Bytes.zeros (32 - content.length), by simp [fits]⟩
  else brokenDown (.copy content.length)

/-- Takes bytes as exactly so many. -/
def takeWhole (count : Nat) (content : Bytes) : Attempt (SizedBytes count) :=
  if sized : content.length = count then pure ⟨content, sized⟩
  else brokenDown (.whole content.length)

/-- The number of magnitudes that the bits hold beside the sign. -/
def signBound (bits : Nat) : Attempt Nat :=
  if 0 < bits ∧ bits ≤ 256 then pure (1 <<< (bits - 1)) else brokenDown (.shift bits)

/-- Whether a signed number has a form of so many bits, by its magnitude. -/
def fitsSigned (number : Int256) (bits : Nat) : Attempt Bool :=
  if 256 ≤ bits then pure true
  else do
    let bound ← signBound bits
    if number.toInt < 0 then return number.toInt.natAbs ≤ bound
    else return number.toInt.natAbs < bound

/-- The word of a fixed byte string. -/
def fixedBytesBySteps (strict : Bool) (size : Nat) (content : Bytes) : Attempt Value :=
  if size < content.length ∨ (strict ∧ content.length ≠ size) then failure
  else do
    let word ← copyIntoWord content
    return .fixedBytes word size

/-- The argument as an address. -/
def addressBySteps : Argument → Attempt Address
  | .bytes content => if content.length = 20 then .mk <$> takeWhole 20 content else failure
  | argument => completed argument.address?

/-- The argument as a function pointer. -/
def functionBySteps : Argument → Attempt (SizedBytes 24)
  | .bytes content => if content.length = 24 then takeWhole 24 content else failure
  | _ => failure

mutual
/-- The value of a type that the argument stands for, by steps that may break down. -/
def coerceBySteps (strict : Bool) : AbiType → Argument → Attempt Value
  | .bool, argument => .bool <$> completed argument.bool?
  | .uint width, argument => do
    let number ← completed argument.unsigned?
    if number.toNat.size ≤ width.1 then return .uint number width.1 else failure
  | .int width, argument => do
    let number ← completed argument.signed?
    if ← fitsSigned number width.1 then return .int number width.1 else failure
  | .fixedBytes size, argument => do
    let content ← completed argument.bytes?
    fixedBytesBySteps strict size.1 content
  | .address, argument => .address <$> addressBySteps argument
  | .function, argument => .function <$> functionBySteps argument
  | .bytes, argument => .bytes <$> completed argument.bytes?
  | .string, argument => .string <$> completed argument.text?
  | .array element, argument => do
    let items ← completed argument.list?
    .array <$> items.mapM (coerceBySteps strict element)
  | .fixedArray element length, argument => do
    let items ← completed argument.list?
    if items.length = length.1 then .fixedArray <$> items.mapM (coerceBySteps strict element)
    else failure
  | .tuple members, argument => do
    let items ← completed argument.list?
    if members.length = items.length then .tuple <$> coerceEachBySteps strict members items
    else failure

/-- The values of the types, one by one, by steps that may break down. -/
def coerceEachBySteps (strict : Bool) : List AbiType → List Argument → Attempt (List Value)
  | type :: types, argument :: arguments => do
    let value ← coerceBySteps strict type argument
    let values ← coerceEachBySteps strict types arguments
    return value :: values
  | _, _ => return []
end

/-! ## No step breaks down -/

/-- A number fits as a negative one up to the bound of the sign, and as another one below it. -/
theorem fits_iff_natAbs (number : Int256) (bits : Nat) :
    number.Fits bits ↔
      if number.toInt < 0 then number.toInt.natAbs ≤ 1 <<< (bits - 1)
      else number.toInt.natAbs < 1 <<< (bits - 1) := by
  unfold Int256.Fits
  generalize 1 <<< (bits - 1) = bound
  split <;> omega

/-- The bound of a width is in range. -/
theorem fitsSigned_eq (number : Int256) (width : IntegerWidth) :
    fitsSigned number width.1 = completed (some (decide (number.Fits width.1))) := by
  obtain ⟨bits, -, positive, inside⟩ := width
  unfold fitsSigned
  split
  · next whole =>
    obtain rfl : bits = 256 := Nat.le_antisymm inside whole
    have fits : number.Fits 256 := ⟨number.lowerBound, number.upperBound⟩
    simp only [fits, decide_true]
    rfl
  · have bound : signBound bits = pure (1 <<< (bits - 1)) := if_pos ⟨positive, inside⟩
    simp only [bound, pure_bind, fits_iff_natAbs]
    split <;> rfl

-- No type has a width of no bits, which would leave none for the sign.
example : fitsSigned ⟨0, by decide, by decide⟩ 0 = brokenDown (.shift 0) := rfl

theorem fixedBytesBySteps_eq (strict : Bool) (size : ByteCount) (content : Bytes) :
    fixedBytesBySteps strict size.1 content = completed (fixedBytes strict size.1 content) := by
  unfold fixedBytesBySteps fixedBytes
  by_cases taken : content.length = size.1 ∨ (content.length < size.1 ∧ ¬strict)
  · have inside : content.length ≤ 32 := by
      have := size.2.2
      omega
    have word : copyIntoWord content = pure (SizedBytes.padRight 32 content) := by
      rw [copyIntoWord, dif_pos inside]
      exact congrArg pure (Subtype.ext (SizedBytes.padRight_of_le inside).symm)
    have kept : ¬(size.1 < content.length ∨ (strict ∧ content.length ≠ size.1)) := by
      rintro (long | ⟨exact, other⟩)
      · omega
      · exact taken.elim other fun short => short.2 exact
    rw [if_pos taken, if_neg kept, word]
    rfl
  · have dropped : size.1 < content.length ∨ (strict ∧ content.length ≠ size.1) := by
      rw [not_or, not_and_not_right] at taken
      rcases Nat.lt_or_ge size.1 content.length with long | short
      · exact .inl long
      · exact .inr ⟨taken.2 (Nat.lt_of_le_of_ne short taken.1), taken.1⟩
    rw [if_neg taken, if_pos dropped]
    rfl

/-- Twenty bytes are taken as a whole only where there are twenty. -/
theorem addressBySteps_eq (argument : Argument) :
    addressBySteps argument = completed argument.address? := by
  cases argument with
  | bytes content =>
    simp only [addressBySteps, address?, Address.ofBytes?, SizedBytes.ofBytes?, takeWhole]
    split <;> rfl
  | _ => rfl

/-- Twenty-four bytes are taken as a whole only where there are twenty-four. -/
theorem functionBySteps_eq (argument : Argument) :
    functionBySteps argument = completed argument.function? := by
  cases argument with
  | bytes content =>
    simp only [functionBySteps, function?, SizedBytes.ofBytes?, takeWhole]
    split <;> rfl
  | _ => rfl

variable {strict : Bool}

theorem coerceEachBySteps_eq {types : List AbiType}
    (each : ∀ type ∈ types, ∀ argument,
      coerceBySteps strict type argument = completed (coerce strict type argument))
    {arguments : List Argument} (counted : types.length = arguments.length) :
    coerceEachBySteps strict types arguments = completed (coerceEach strict types arguments) := by
  induction types generalizing arguments with
  | nil =>
    obtain rfl := List.eq_nil_of_length_eq_zero counted.symm
    rfl
  | cons type types inductionHypothesis =>
    obtain ⟨argument, arguments, rfl⟩ := List.exists_cons_of_length_eq_add_one counted.symm
    obtain ⟨first, others⟩ := List.forall_mem_cons.1 each
    rw [coerceEachBySteps, coerceEach, first, inductionHypothesis others (Nat.succ.inj counted)]
    cases coerce strict type argument with
    | none => rfl
    | some value => cases coerceEach strict types arguments <;> rfl

/-- Unequally many arguments have no values. -/
theorem coerceEach_eq_none {types : List AbiType} {arguments : List Argument}
    (uncounted : types.length ≠ arguments.length) : coerceEach strict types arguments = none := by
  induction types generalizing arguments with
  | nil =>
    cases arguments with
    | nil => exact absurd rfl uncounted
    | cons => rfl
  | cons type types inductionHypothesis =>
    cases arguments with
    | nil => rfl
    | cons argument arguments =>
      have others := inductionHypothesis fun same => uncounted (congrArg Nat.succ same)
      rw [coerceEach, others]
      cases coerce strict type argument <;> rfl

/-- No step of a coercion breaks down. -/
theorem coerceBySteps_eq (strict : Bool) (type : AbiType) (argument : Argument) :
    coerceBySteps strict type argument = completed (coerce strict type argument) := by
  induction type generalizing argument with
  | bool | bytes | string => simp only [coerceBySteps, coerce, Attempt.map_completed]
  | uint width =>
    simp only [coerceBySteps, coerce]
    cases argument.unsigned? with
    | none => rfl
    | some number =>
      have fits : number.toNat.size ≤ width.1 ↔ number.Fits width.1 := by
        rw [Nat.size_le, Uint256.Fits, Nat.one_shiftLeft]
      simp only [Attempt.some_bind, fits]
      split <;> rfl
  | int width =>
    simp only [coerceBySteps, coerce]
    cases argument.signed? with
    | none => rfl
    | some number =>
      simp only [fitsSigned_eq, Attempt.some_bind, decide_eq_true_eq]
      split <;> rfl
  | fixedBytes size =>
    simp only [coerceBySteps, coerce, fixedBytesBySteps_eq, Attempt.completed_bind]
  | address => simp only [coerceBySteps, coerce, addressBySteps_eq, Attempt.map_completed]
  | function => simp only [coerceBySteps, coerce, functionBySteps_eq, Attempt.map_completed]
  | array element inductionHypothesis =>
    simp only [coerceBySteps, coerce]
    cases argument.list? with
    | none => rfl
    | some items =>
      simp only [Attempt.mapM_completed inductionHypothesis, Attempt.map_completed]
      rfl
  | fixedArray element length inductionHypothesis =>
    simp only [coerceBySteps, coerce]
    cases argument.list? with
    | none => rfl
    | some items =>
      simp only [Attempt.mapM_completed inductionHypothesis, Attempt.map_completed]
      show ite _ _ _ = _
      split <;> rfl
  | tuple members inductionHypothesis =>
    simp only [coerceBySteps, coerce]
    cases argument.list? with
    | none => rfl
    | some items =>
      show ite _ _ _ = _
      split
      · next counted =>
        rw [coerceEachBySteps_eq inductionHypothesis counted, Attempt.map_completed]
      · next uncounted =>
        simp only [coerceEach_eq_none uncounted]
        rfl

end Argument

end ContractAbi
