import ContractAbi.Value.Decoding

/-!
# Room for fixed arrays

A decoder asks for room for every fixed array that the types mention, from the inside out. Whether
there is room depends on the length of the array and on the host alone, so it is enough to look at
the lengths in a row. `AbiType.firstRoomFault?_eq_none_iff` and
`AbiType.firstRoomFault?_eq_some_iff` say when the decoder goes on and where it stops.
-/

namespace ContractAbi.AbiType

/-- The part stands in the type at any depth, or is the type itself. -/
inductive Mentions : AbiType → AbiType → Prop where
  | itself (type : AbiType) : Mentions type type
  | item {element part : AbiType} (inside : Mentions element part) :
    Mentions (.array element) part
  | fixedItem {element part : AbiType} {length : ArrayLength} (inside : Mentions element part) :
    Mentions (.fixedArray element length) part
  | member {members : List AbiType} {member part : AbiType} (isMember : member ∈ members)
    (inside : Mentions member part) : Mentions (.tuple members) part

/-- There is room for the items of a fixed array, forty bytes each: sixty-three bits are enough to
count the bytes, and a host that can set `room` bytes apart has as many. -/
def HasRoom (room : Nat) (length : ArrayLength) : Prop :=
  40 * length.1 < 1 <<< 63 ∧ 40 * length.1 ≤ room

instance (room : Nat) (length : ArrayLength) : Decidable (HasRoom room length) :=
  inferInstanceAs (Decidable (_ ∧ _))

/-- There is room for every fixed array that the types mention. -/
def HaveRoom (room : Nat) (types : List AbiType) : Prop :=
  ∀ type ∈ types, ∀ element length, type.Mentions (.fixedArray element length) →
    HasRoom room length

mutual
/-- The lengths of the fixed arrays that a type mentions, from the inside out. -/
def fixedLengths : AbiType → List ArrayLength
  | .array element => element.fixedLengths
  | .fixedArray element length => element.fixedLengths ++ [length]
  | .tuple members => allFixedLengths members
  | _ => []

/-- The lengths of the fixed arrays that types mention, one type after the other. -/
def allFixedLengths : List AbiType → List ArrayLength
  | [] => []
  | type :: types => type.fixedLengths ++ allFixedLengths types
end

/-- The first fixed array without room, from the inside out, has the length. -/
def FirstRoomless (room : Nat) (types : List AbiType) (length : ArrayLength) : Prop :=
  ∃ before after, allFixedLengths types = before ++ length :: after ∧
    (∀ other ∈ before, HasRoom room other) ∧ ¬HasRoom room length

/-- What is wrong with a fixed array of a length without room. -/
def roomlessFault (length : ArrayLength) : DecodingFault :=
  if 40 * length.1 < 1 <<< 63 then .noRoom else .uncountable

variable {room : Nat} {type element : AbiType} {members types : List AbiType}
  {length : ArrayLength} {fault : DecodingFault}

theorem FirstRoomless.mem (first : FirstRoomless room types length) :
    length ∈ allFixedLengths types := by
  obtain ⟨before, after, split, -, -⟩ := first
  rw [split]
  exact List.mem_append_right before List.mem_cons_self

/-! ## Lengths in a row -/

theorem mem_allFixedLengths_iff :
    length ∈ allFixedLengths types ↔ ∃ type ∈ types, length ∈ type.fixedLengths := by
  induction types with
  | nil => simp [allFixedLengths]
  | cons type types inductionHypothesis => simp [allFixedLengths, inductionHypothesis]

/-- The lengths are those of the fixed arrays that the type mentions. -/
theorem mem_fixedLengths_iff :
    length ∈ type.fixedLengths ↔ ∃ element, type.Mentions (.fixedArray element length) := by
  induction type with
  | bool | uint | int | fixedBytes | address | function | bytes | string =>
    simp only [fixedLengths, List.not_mem_nil, false_iff]
    rintro ⟨_, ⟨⟩⟩
  | array element inductionHypothesis =>
    rw [fixedLengths, inductionHypothesis]
    refine exists_congr fun part => ⟨.item, ?_⟩
    rintro ⟨⟩
    assumption
  | fixedArray element own inductionHypothesis =>
    simp only [fixedLengths, List.mem_append, inductionHypothesis, List.mem_singleton]
    constructor
    · rintro (⟨part, inside⟩ | rfl)
      · exact ⟨part, .fixedItem inside⟩
      · exact ⟨element, .itself _⟩
    · rintro ⟨part, mentioned⟩
      cases mentioned with
      | itself => exact .inr rfl
      | fixedItem inside => exact .inl ⟨part, inside⟩
  | tuple members inductionHypothesis =>
    rw [fixedLengths, mem_allFixedLengths_iff]
    constructor
    · rintro ⟨member, isMember, found⟩
      obtain ⟨part, inside⟩ := (inductionHypothesis member isMember).1 found
      exact ⟨part, .member isMember inside⟩
    · rintro ⟨part, mentioned⟩
      cases mentioned with
      | member isMember inside =>
        exact ⟨_, isMember, (inductionHypothesis _ isMember).2 ⟨part, inside⟩⟩

/-- There is room for the types when there is room for each of the lengths. -/
theorem haveRoom_iff :
    HaveRoom room types ↔ ∀ length ∈ allFixedLengths types, HasRoom room length := by
  simp only [mem_allFixedLengths_iff, mem_fixedLengths_iff, HaveRoom]
  constructor
  · rintro each length ⟨type, member, element, mentioned⟩
    exact each type member element length mentioned
  · intro each type member element length mentioned
    exact each length ⟨type, member, element, mentioned⟩

instance (room : Nat) (types : List AbiType) : Decidable (HaveRoom room types) :=
  decidable_of_iff' _ haveRoom_iff

/-! ## What a decoder asks for -/

/-- The fault of a length, if there is no room for it. -/
def lengthFault? (room : Nat) (length : ArrayLength) : Option DecodingFault :=
  if HasRoom room length then none else some (roomlessFault length)

theorem lengthFault?_eq_none_iff : lengthFault? room length = none ↔ HasRoom room length := by
  simp [lengthFault?]

theorem lengthFault?_eq_some_iff :
    lengthFault? room length = some fault ↔
      ¬HasRoom room length ∧ fault = roomlessFault length := by
  simp [lengthFault?, eq_comm]

/-- The fault of a fixed array comes behind those of its items. -/
theorem roomFault?_fixedArray :
    (fixedArray element length).roomFault? room =
      (element.roomFault? room).or (lengthFault? room length) := by
  rw [roomFault?]
  cases element.roomFault? room with
  | some fault => rfl
  | none =>
    have uncountable : length.1 * itemRoom > countableRoom ↔ ¬40 * length.1 < 1 <<< 63 := by
      simp only [itemRoom, countableRoom]
      omega
    have tooLarge : length.1 * itemRoom > room ↔ ¬40 * length.1 ≤ room := by
      simp only [itemRoom]
      omega
    simp only [uncountable, tooLarge, lengthFault?, HasRoom, roomlessFault, Option.none_or]
    by_cases counted : 40 * length.1 < 1 <<< 63 <;> by_cases fits : 40 * length.1 ≤ room <;>
      simp only [counted, fits, not_true_eq_false, not_false_eq_true, and_self, and_true, and_false,
        ↓reduceIte]

theorem firstRoomFault?_eq_findSome?_of_each
    (each : ∀ type ∈ types,
      type.roomFault? room = type.fixedLengths.findSome? (lengthFault? room)) :
    firstRoomFault? room types = (allFixedLengths types).findSome? (lengthFault? room) := by
  induction types with
  | nil => rfl
  | cons type types inductionHypothesis =>
    obtain ⟨first, others⟩ := List.forall_mem_cons.1 each
    rw [firstRoomFault?, allFixedLengths, List.findSome?_append, ← first,
      ← inductionHypothesis others]
    cases type.roomFault? room <;> rfl

theorem roomFault?_eq_findSome? (room : Nat) (type : AbiType) :
    type.roomFault? room = type.fixedLengths.findSome? (lengthFault? room) := by
  induction type with
  | bool | uint | int | fixedBytes | address | function | bytes | string => rfl
  | array element inductionHypothesis => exact inductionHypothesis
  | fixedArray element length inductionHypothesis =>
    rw [roomFault?_fixedArray, fixedLengths, List.findSome?_append, inductionHypothesis,
      List.findSome?_singleton]
  | tuple members inductionHypothesis =>
    exact firstRoomFault?_eq_findSome?_of_each inductionHypothesis

theorem firstRoomFault?_eq_findSome? (room : Nat) (types : List AbiType) :
    firstRoomFault? room types = (allFixedLengths types).findSome? (lengthFault? room) :=
  firstRoomFault?_eq_findSome?_of_each fun type _ => roomFault?_eq_findSome? room type

/-- A decoder goes on when there is room for every fixed array that the types mention. -/
theorem firstRoomFault?_eq_none_iff :
    firstRoomFault? room types = none ↔ HaveRoom room types := by
  rw [firstRoomFault?_eq_findSome?, List.findSome?_eq_none_iff, haveRoom_iff]
  simp only [lengthFault?_eq_none_iff]

/-- A decoder stops at the first fixed array without room. -/
theorem firstRoomFault?_eq_some_iff :
    firstRoomFault? room types = some fault ↔
      ∃ length, FirstRoomless room types length ∧ fault = roomlessFault length := by
  rw [firstRoomFault?_eq_findSome?, List.findSome?_eq_some_iff]
  simp only [lengthFault?_eq_none_iff, lengthFault?_eq_some_iff, FirstRoomless]
  constructor
  · rintro ⟨before, length, after, split, ⟨roomless, isFault⟩, fine⟩
    exact ⟨length, ⟨before, after, split, fine, roomless⟩, isFault⟩
  · rintro ⟨length, ⟨before, after, split, fine, roomless⟩, isFault⟩
    exact ⟨before, length, after, split, ⟨roomless, isFault⟩, fine⟩

/-- Without room for all fixed arrays there is a first one without room, and it makes the fault. -/
theorem exists_firstRoomless (roomless : ¬HaveRoom room types) :
    ∃ length, FirstRoomless room types length ∧
      firstRoomFault? room types = some (roomlessFault length) := by
  rw [← firstRoomFault?_eq_none_iff] at roomless
  obtain ⟨fault, isFault⟩ := Option.ne_none_iff_exists'.1 roomless
  obtain ⟨length, first, rfl⟩ := firstRoomFault?_eq_some_iff.1 isFault
  exact ⟨length, first, isFault⟩

end ContractAbi.AbiType
