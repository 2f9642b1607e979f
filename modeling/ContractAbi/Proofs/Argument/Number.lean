import ContractAbi.Proofs.Argument.Coercion
import Mathlib

/-!
# Numbers of integer arguments

An integer argument stands for one number whatever its sign form, and it is coerced to an integer
type exactly when that number is in the range of the type (`Argument.coerce_uint_eq_some_iff`,
`Argument.coerce_int_eq_some_iff`, `Argument.TakesIntegers`).
-/

namespace ContractAbi

namespace Uint256

theorem ofNat?_eq_some_iff {natural : Nat} {number : Uint256} :
    ofNat? natural = some number ↔ natural = number.toNat := by
  obtain ⟨number, bound⟩ := number
  unfold ofNat?
  split
  · simp
  · next outside =>
    have different : natural ≠ number := fun same => outside (same ▸ bound)
    simpa using different

theorem Fits.mono {number : Uint256} {narrow wide : Nat} (fits : number.Fits narrow)
    (widens : narrow ≤ wide) : number.Fits wide := by
  simp only [Fits, Nat.one_shiftLeft] at fits ⊢
  exact lt_of_lt_of_le fits (Nat.pow_le_pow_right Nat.zero_lt_two widens)

end Uint256

namespace Int256

theorem ofInt?_eq_some_iff {integer : Int} {number : Int256} :
    ofInt? integer = some number ↔ integer = number.toInt := by
  obtain ⟨number, lower, upper⟩ := number
  unfold ofInt?
  split
  · simp
  · next outside =>
    have different : integer ≠ number := fun same => outside (same ▸ ⟨lower, upper⟩)
    simpa using different

theorem Fits.mono {number : Int256} {narrow wide : Nat} (fits : number.Fits narrow)
    (widens : narrow ≤ wide) : number.Fits wide := by
  have bound : 2 ^ (narrow - 1) ≤ 2 ^ (wide - 1) :=
    Nat.pow_le_pow_right Nat.zero_lt_two (Nat.sub_le_sub_right widens 1)
  simp only [Fits, Nat.one_shiftLeft] at fits ⊢
  omega

/-- An unsigned number is a signed one of any greater width. -/
theorem exists_fits_of_unsigned {number : Uint256} {narrow wide : Nat} (fits : number.Fits narrow)
    (widens : narrow < wide) (inside : wide ≤ 256) :
    ∃ signed : Int256, signed.toInt = number.toNat ∧ signed.Fits wide := by
  have half : number.toNat < 1 <<< (wide - 1) := fits.mono (Nat.le_sub_one_of_lt widens)
  have room : number.toNat < 1 <<< 255 := fits.mono (by omega)
  exact ⟨⟨number.toNat, by omega, by omega⟩, rfl, by simp only [Fits]; omega⟩

end Int256

/-- The number that an integer holds. -/
def Value.number? : Value → Option Int
  | .uint number _ => some number.toNat
  | .int number _ => some number.toInt
  | _ => none

namespace Argument

/-- The number that an integer argument stands for. -/
def number? : Argument → Option Int
  | .uint number => some number.toNat
  | .int number => some number.toInt
  | _ => none

theorem unsigned?_eq_some_iff {argument : Argument} {number : Uint256} :
    argument.unsigned? = some number ↔ argument.number? = some (number.toNat : Int) := by
  cases argument with
  | uint given =>
    cases given
    cases number
    simp [unsigned?, number?]
  | int given =>
    simp only [unsigned?, number?, Option.some.injEq]
    split
    · rw [Uint256.ofNat?_eq_some_iff]
      omega
    · simp only [reduceCtorEq, false_iff]
      omega
  | _ => simp [unsigned?, number?]

theorem signed?_eq_some_iff {argument : Argument} {number : Int256} :
    argument.signed? = some number ↔ argument.number? = some number.toInt := by
  cases argument with
  | uint given => simp only [signed?, number?, Option.some.injEq, Int256.ofInt?_eq_some_iff]
  | int given =>
    cases given
    cases number
    simp [signed?, number?]
  | _ => simp [signed?, number?]

variable {strict : Bool} {width : IntegerWidth} {argument : Argument} {value : Value}

/-- An argument is coerced to an unsigned integer exactly when its number fits, and to that
number. -/
theorem coerce_uint_eq_some_iff :
    coerce strict (.uint width) argument = some value ↔
      ∃ number : Uint256, argument.number? = some (number.toNat : Int) ∧ number.Fits width.1 ∧
        value = .uint number width.1 := by
  simp only [coerce, ← unsigned?_eq_some_iff]
  cases argument.unsigned? with
  | none => simp
  | some number => simp [eq_comm]

/-- An argument is coerced to a signed integer exactly when its number fits, and to that number. -/
theorem coerce_int_eq_some_iff :
    coerce strict (.int width) argument = some value ↔
      ∃ number : Int256, argument.number? = some number.toInt ∧ number.Fits width.1 ∧
        value = .int number width.1 := by
  simp only [coerce, ← signed?_eq_some_iff]
  cases argument.signed? with
  | none => simp
  | some number => simp [eq_comm]

/-! ## Accepted numbers -/

/-- At a type, exactly the integer arguments from a lower up to an upper bound are coerced, whatever
their sign form, and each to a value of its number. -/
structure TakesIntegers (strict : Bool) (type : AbiType) (lower upper : Int) : Prop where
  accepted (argument : Argument) :
    (coerce strict type argument).isSome = true ↔
      ∃ number, argument.number? = some number ∧ lower ≤ number ∧ number < upper
  kept {argument : Argument} {value : Value} (coerced : coerce strict type argument = some value) :
    value.number? = argument.number?

theorem takesIntegers_uint (strict : Bool) (width : IntegerWidth) :
    TakesIntegers strict (.uint width) 0 (2 ^ width.1) where
  accepted argument := by
    simp only [Option.isSome_iff_exists, coerce_uint_eq_some_iff, Uint256.Fits, Nat.one_shiftLeft]
    constructor
    · rintro ⟨_, number, supplied, fits, -⟩
      exact ⟨number.toNat, supplied, by omega, by exact_mod_cast fits⟩
    · rintro ⟨number, supplied, positive, bounded⟩
      obtain ⟨natural, rfl⟩ := Int.eq_ofNat_of_zero_le positive
      have fits : natural < 2 ^ width.1 := by exact_mod_cast bounded
      have inside : natural < 1 <<< 256 := by
        rw [Nat.one_shiftLeft]
        exact lt_of_lt_of_le fits (Nat.pow_le_pow_right Nat.zero_lt_two width.2.2.2)
      exact ⟨_, ⟨natural, inside⟩, supplied, fits, rfl⟩
  kept coerced := by
    obtain ⟨number, supplied, -, rfl⟩ := coerce_uint_eq_some_iff.1 coerced
    exact supplied.symm

theorem takesIntegers_int (strict : Bool) (width : IntegerWidth) :
    TakesIntegers strict (.int width) (-2 ^ (width.1 - 1)) (2 ^ (width.1 - 1)) where
  accepted argument := by
    simp only [Option.isSome_iff_exists, coerce_int_eq_some_iff, Int256.Fits, Nat.one_shiftLeft,
      Nat.cast_pow, Nat.cast_ofNat]
    constructor
    · rintro ⟨_, number, supplied, fits, -⟩
      exact ⟨number.toInt, supplied, fits⟩
    · rintro ⟨number, supplied, fits⟩
      have widest : (2 : Int) ^ (width.1 - 1) ≤ 2 ^ 255 :=
        pow_le_pow_right₀ (by decide) (Nat.sub_le_sub_right width.2.2.2 1)
      exact ⟨_, ⟨number, by omega, by omega⟩, supplied, fits, rfl⟩
  kept coerced := by
    obtain ⟨number, supplied, -, rfl⟩ := coerce_int_eq_some_iff.1 coerced
    exact supplied.symm

end Argument

end ContractAbi
