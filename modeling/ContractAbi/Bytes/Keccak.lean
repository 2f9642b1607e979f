import ContractAbi.Bytes

/-!
# Keccak-256

The sponge over twenty-five 64-bit lanes with a rate of 136 bytes. Each of the twenty-four rounds
is a composition of four layers, and each layer is one function on the lanes.
-/

namespace ContractAbi.Keccak

/-- The state: lane `5 * y + x` stands in column `x` and row `y`. -/
abbrev Lanes := Vector UInt64 25

/-- The lane in column `x` and row `y`, both counted modulo five. -/
def lane (state : Lanes) (x y : Nat) : UInt64 :=
  state.get (Fin.ofNat 25 (5 * (y % 5) + x % 5))

/-- The state whose lane in column `x` and row `y` is `content x y`. -/
def layer (content : Nat → Nat → UInt64) : Lanes :=
  Vector.ofFn fun index : Fin 25 => content (index.1 % 5) (index.1 / 5)

/-- A lane turned left. -/
def rotate (amount : Nat) (bits : UInt64) : UInt64 :=
  bits <<< UInt64.ofNat amount ||| bits >>> UInt64.ofNat (64 - amount)

/-- Each lane takes in the parities of two neighbouring columns. -/
def theta (state : Lanes) : Lanes :=
  let parity : Vector UInt64 5 := Vector.ofFn fun x : Fin 5 =>
    lane state x 0 ^^^ lane state x 1 ^^^ lane state x 2 ^^^ lane state x 3 ^^^ lane state x 4
  let column (x : Nat) := parity.get (Fin.ofNat 5 x)
  layer fun x y => lane state x y ^^^ column (x + 4) ^^^ rotate 1 (column (x + 1))

/-- The amounts by which the lanes are turned. -/
def rotations : Vector Nat 25 := #v[
  0, 1, 62, 28, 27,
  36, 44, 6, 55, 20,
  3, 10, 43, 25, 39,
  41, 45, 15, 21, 8,
  18, 2, 61, 56, 14]

/-- The lanes are turned and moved to other places. -/
def rhoPi (state : Lanes) : Lanes :=
  layer fun x y =>
    -- The lane that arrives at column `x` and row `y` comes from row `x`.
    let source := Fin.ofNat 25 (5 * x + (x + 3 * y) % 5)
    rotate (rotations.get source) (state.get source)

/-- Each lane takes in the two lanes to its right. -/
def chi (state : Lanes) : Lanes :=
  layer fun x y => lane state x y ^^^ (~~~lane state (x + 1) y &&& lane state (x + 2) y)

/-- The constant of a round is added to the first lane. -/
def iota (constant : UInt64) (state : Lanes) : Lanes :=
  state.set 0 (state[0] ^^^ constant)

/-- The constants of the twenty-four rounds. -/
def roundConstants : List UInt64 := [
  0x0000000000000001, 0x0000000000008082, 0x800000000000808a, 0x8000000080008000,
  0x000000000000808b, 0x0000000080000001, 0x8000000080008081, 0x8000000000008009,
  0x000000000000008a, 0x0000000000000088, 0x0000000080008009, 0x000000008000000a,
  0x000000008000808b, 0x800000000000008b, 0x8000000000008089, 0x8000000000008003,
  0x8000000000008002, 0x8000000000000080, 0x000000000000800a, 0x800000008000000a,
  0x8000000080008081, 0x8000000000008080, 0x0000000080000001, 0x8000000080008008]

/-- The permutation of the sponge. -/
def permute (state : Lanes) : Lanes :=
  roundConstants.foldl (fun state constant => iota constant (chi (rhoPi (theta state)))) state

/-- The number of bytes taken in between two permutations. -/
def rate : Nat := 136

/-- The lane that eight bytes spell, the lowest first. -/
def laneOfBytes (bytes : Bytes) : UInt64 := UInt64.ofNat (Bytes.toNat (bytes.take 8).reverse)

/-- The eight bytes of a lane, the lowest first. -/
def bytesOfLane (bits : UInt64) : Bytes := (Bytes.ofNat 8 bits.toNat).reverse

/-- A message filled up to a whole number of blocks, which always adds at least one byte. -/
def pad (message : Bytes) : Bytes :=
  let missing := rate - message.length % rate
  if missing = 1 then message ++ [0x81] else message ++ 0x01 :: Bytes.zeros (missing - 2) ++ [0x80]

/-- The state after the next `count` blocks. -/
def absorb : (count : Nat) → Bytes → Lanes → Lanes
  | 0, _, state => state
  | count + 1, message, state =>
    let block := message.take rate
    let mixed := layer fun x y =>
      let index := 5 * y + x
      if 8 * index < rate then lane state x y ^^^ laneOfBytes (block.drop (8 * index))
      else lane state x y
    absorb count (message.drop rate) (permute mixed)

/-- The hash of a message. -/
def hash (message : Bytes) : Word :=
  let padded := pad message
  let state := absorb (padded.length / rate) padded (Vector.replicate 25 0)
  SizedBytes.padRight 32 ((state.toList.take 4).flatMap bytesOfLane)

end ContractAbi.Keccak
