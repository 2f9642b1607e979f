import ContractAbi.Proofs.Address
import ContractAbi.Proofs.Argument.Coercion

/-!
# Interchangeable forms

An address can be supplied in three forms, and a byte string also in digits. Arguments that differ
in such forms alone, at any depth, are coerced alike at every type that is built from addresses or
from byte strings (`Argument.coerce_eq_of_interchanged`).
-/

namespace ContractAbi

/-- A type of arrays and tuples around the given leaves. -/
inductive AbiType.BuiltFrom (leaf : AbiType → Prop) : AbiType → Prop where
  | leaf {type : AbiType} (isLeaf : leaf type) : BuiltFrom leaf type
  | array {element : AbiType} (built : BuiltFrom leaf element) : BuiltFrom leaf (.array element)
  | fixedArray {element : AbiType} {length : ArrayLength} (built : BuiltFrom leaf element) :
    BuiltFrom leaf (.fixedArray element length)
  | tuple {members : List AbiType} (each : ∀ member ∈ members, BuiltFrom leaf member) :
    BuiltFrom leaf (.tuple members)

/-- A type of byte strings, fixed or not. -/
def AbiType.IsByteString (type : AbiType) : Prop :=
  type = .bytes ∨ ∃ size, type = .fixedBytes size

namespace Argument

/-! ## Forms -/

/-- The forms in which an address can be supplied: as such, as its bytes, and as its text. -/
inductive AddressForm (place : Address) : Argument → Prop where
  | address : AddressForm place (.address place)
  | bytes : AddressForm place (.bytes place.bytes.1)
  | text : AddressForm place (.text place.checksummed)

/-- The forms in which a byte string can be supplied: as such, and in digits of either case. -/
inductive BytesForm (content : Bytes) : Argument → Prop where
  | bytes : BytesForm content (.bytes content)
  | text {digits : List Char} (written : digits.map Char.toLower = Hex.digits content) :
    BytesForm content (.text (String.ofList ('0' :: 'x' :: digits)))

/-- Two arguments are forms of one address. -/
def SameAddress (left right : Argument) : Prop :=
  ∃ place, AddressForm place left ∧ AddressForm place right

/-- Two arguments are forms of one byte string. -/
def SameBytes (left right : Argument) : Prop :=
  ∃ content, BytesForm content left ∧ BytesForm content right

/-- Two arguments differ at most in parts that are alike. -/
inductive Interchanged (alike : Argument → Argument → Prop) : Argument → Argument → Prop where
  | same (argument : Argument) : Interchanged alike argument argument
  | part {left right : Argument} (isAlike : alike left right) : Interchanged alike left right
  | list {lefts rights : List Argument} (each : List.Forall₂ (Interchanged alike) lefts rights) :
    Interchanged alike (.list lefts) (.list rights)
  | map {lefts rights : List (String × Argument)} (keys : lefts.map Prod.fst = rights.map Prod.fst)
    (values : List.Forall₂ (Interchanged alike) (lefts.map Prod.snd) (rights.map Prod.snd)) :
    Interchanged alike (.map lefts) (.map rights)

/-- What can be taken for an address is a form of it. -/
theorem address?_eq_some_iff {argument : Argument} {place : Address} :
    argument.address? = some place ↔ AddressForm place argument := by
  constructor
  · intro taken
    cases argument with
    | address other =>
      obtain rfl := Option.some.inj taken
      exact .address
    | bytes content =>
      obtain ⟨sized, isSized, rfl⟩ := Option.map_eq_some_iff.1 taken
      obtain ⟨counted, same⟩ := Option.dite_none_right_eq_some.1 isSized
      obtain rfl := Option.some.inj same
      exact .bytes
    | text content =>
      obtain rfl := Address.ofChecksummed?_eq_some_iff.1 taken
      exact .text
    | _ => cases taken
  · intro form
    cases form with
    | address => rfl
    | bytes => simp [address?, Address.ofBytes?, SizedBytes.ofBytes?]
    | text => exact Address.ofChecksummed?_eq_some_iff.2 rfl

/-- What can be taken for a byte string is a form of it. -/
theorem bytes?_eq_some_iff {argument : Argument} {content : Bytes} :
    argument.bytes? = some content ↔ BytesForm content argument := by
  constructor
  · intro taken
    cases argument with
    | bytes other =>
      obtain rfl := Option.some.inj taken
      exact .bytes
    | text text =>
      obtain ⟨marked, read⟩ := Option.ite_none_right_eq_some.1 taken
      obtain ⟨digits, split⟩ := List.isPrefixOf_iff_prefix.1 marked
      have spelled : Hex.decode ('0' :: 'x' :: digits) = .ok content := by
        rw [← split] at read
        exact Outcome.toOption_eq_some.1 read
      have whole : text = String.ofList ('0' :: 'x' :: digits) := by
        have characters : text.toList = '0' :: 'x' :: digits := split.symm
        rw [← characters, String.ofList_toList]
      rw [whole]
      exact .text (Hex.decode_marked_eq_ok_iff.1 spelled)
    | _ => cases taken
  · intro form
    cases form with
    | bytes => rfl
    | text written =>
      simp only [bytes?, String.toList_ofList, Hex.decode_marked_eq_ok_iff.2 written]
      rfl

variable {strict : Bool} {leaf : AbiType → Prop} {alike : Argument → Argument → Prop}
  {left right : Argument}

/-! ## Lists of interchanged arguments -/

/-- Interchanged arguments are both lists, with interchanged items, or none of them is one. -/
theorem Interchanged.list?_cases
    (plain : ∀ {left right}, alike left right → left.list? = none ∧ right.list? = none)
    (interchanged : Interchanged alike left right) :
    left.list? = none ∧ right.list? = none ∨
      ∃ lefts rights, left.list? = some lefts ∧ right.list? = some rights ∧
        List.Forall₂ (Interchanged alike) lefts rights := by
  cases interchanged with
  | same =>
    cases items : left.list? with
    | none => exact .inl ⟨rfl, rfl⟩
    | some own => exact .inr ⟨own, own, rfl, rfl, List.forall₂_same.2 fun _ _ => .same _⟩
  | part isAlike => exact .inl (plain isAlike)
  | list each => exact .inr ⟨_, _, rfl, rfl, each⟩
  | map => exact .inl ⟨rfl, rfl⟩

/-- Items that are coerced alike make lists that are. -/
theorem mapM_coerce_eq {element : AbiType} {lefts rights : List Argument}
    (each : ∀ {left right}, Interchanged alike left right →
      coerce strict element left = coerce strict element right)
    (interchanged : List.Forall₂ (Interchanged alike) lefts rights) :
    lefts.mapM (coerce strict element) = rights.mapM (coerce strict element) := by
  induction interchanged with
  | nil => rfl
  | cons first _ inductionHypothesis =>
    rw [List.mapM_cons, List.mapM_cons, each first, inductionHypothesis]

/-- Members that are coerced alike make tuples that are. -/
theorem coerceEach_eq {members : List AbiType} {lefts rights : List Argument}
    (each : ∀ member ∈ members, ∀ {left right}, Interchanged alike left right →
      coerce strict member left = coerce strict member right)
    (interchanged : List.Forall₂ (Interchanged alike) lefts rights) :
    coerceEach strict members lefts = coerceEach strict members rights := by
  induction interchanged generalizing members with
  | nil => rfl
  | cons first _ inductionHypothesis =>
    cases members with
    | nil => rfl
    | cons member members =>
      obtain ⟨eachFirst, others⟩ := List.forall_mem_cons.1 each
      rw [coerceEach, coerceEach, eachFirst first, inductionHypothesis others]

/-- What the leaves of a type take alike, the type does. -/
theorem coerce_eq_of_interchanged
    (plain : ∀ {left right}, alike left right → left.list? = none ∧ right.list? = none)
    (leaves : ∀ {type}, leaf type → ∀ {left right}, Interchanged alike left right →
      coerce strict type left = coerce strict type right)
    {type : AbiType} (built : type.BuiltFrom leaf) (interchanged : Interchanged alike left right) :
    coerce strict type left = coerce strict type right := by
  induction built generalizing left right with
  | leaf isLeaf => exact leaves isLeaf interchanged
  | array _ inductionHypothesis =>
    obtain ⟨noLeft, noRight⟩ | ⟨lefts, rights, isLeft, isRight, each⟩ :=
      interchanged.list?_cases plain
    · simp only [coerce, noLeft, noRight]
    · simp only [coerce, isLeft, isRight, mapM_coerce_eq inductionHypothesis each]
  | fixedArray _ inductionHypothesis =>
    obtain ⟨noLeft, noRight⟩ | ⟨lefts, rights, isLeft, isRight, each⟩ :=
      interchanged.list?_cases plain
    · simp only [coerce, noLeft, noRight]
    · simp only [coerce, isLeft, isRight, each.length_eq, mapM_coerce_eq inductionHypothesis each]
  | tuple _ inductionHypothesis =>
    obtain ⟨noLeft, noRight⟩ | ⟨lefts, rights, isLeft, isRight, each⟩ :=
      interchanged.list?_cases plain
    · simp only [coerce, noLeft, noRight]
    · simp only [coerce, isLeft, isRight, coerceEach_eq inductionHypothesis each]

/-! ## Leaves -/

/-- What alike arguments can both be taken for, interchanged ones can, if no list or mapping can. -/
theorem Interchanged.taken_eq {α : Type} {take? : Argument → Option α}
    (shared : ∀ {left right}, alike left right → take? left = take? right)
    (noList : ∀ items, take? (.list items) = none)
    (noMap : ∀ entries, take? (.map entries) = none)
    (interchanged : Interchanged alike left right) : take? left = take? right := by
  cases interchanged with
  | same => rfl
  | part isAlike => exact shared isAlike
  | list => rw [noList, noList]
  | map => rw [noMap, noMap]

theorem address?_eq_of_interchanged (interchanged : Interchanged SameAddress left right) :
    left.address? = right.address? := by
  refine interchanged.taken_eq ?_ (fun _ => rfl) (fun _ => rfl)
  rintro left right ⟨place, isLeft, isRight⟩
  rw [address?_eq_some_iff.2 isLeft, address?_eq_some_iff.2 isRight]

theorem bytes?_eq_of_interchanged (interchanged : Interchanged SameBytes left right) :
    left.bytes? = right.bytes? := by
  refine interchanged.taken_eq ?_ (fun _ => rfl) (fun _ => rfl)
  rintro left right ⟨content, isLeft, isRight⟩
  rw [bytes?_eq_some_iff.2 isLeft, bytes?_eq_some_iff.2 isRight]

theorem AddressForm.list?_eq_none {place : Address} {argument : Argument}
    (form : AddressForm place argument) : argument.list? = none := by
  cases form <;> rfl

theorem BytesForm.list?_eq_none {content : Bytes} {argument : Argument}
    (form : BytesForm content argument) : argument.list? = none := by
  cases form <;> rfl

/-- Types of addresses take all forms of an address alike. -/
theorem coerce_eq_of_sameAddress {type : AbiType} (built : type.BuiltFrom (· = .address))
    (interchanged : Interchanged SameAddress left right) :
    coerce strict type left = coerce strict type right := by
  refine coerce_eq_of_interchanged ?_ ?_ built interchanged
  · rintro left right ⟨place, isLeft, isRight⟩
    exact ⟨isLeft.list?_eq_none, isRight.list?_eq_none⟩
  · rintro _ rfl left right interchanged
    rw [coerce, coerce, address?_eq_of_interchanged interchanged]

/-- Types of byte strings take all forms of a byte string alike. -/
theorem coerce_eq_of_sameBytes {type : AbiType} (built : type.BuiltFrom AbiType.IsByteString)
    (interchanged : Interchanged SameBytes left right) :
    coerce strict type left = coerce strict type right := by
  refine coerce_eq_of_interchanged ?_ ?_ built interchanged
  · rintro left right ⟨content, isLeft, isRight⟩
    exact ⟨isLeft.list?_eq_none, isRight.list?_eq_none⟩
  · rintro _ (rfl | ⟨size, rfl⟩) left right interchanged
    · rw [coerce, coerce, bytes?_eq_of_interchanged interchanged]
    · rw [coerce, coerce, bytes?_eq_of_interchanged interchanged]

/-! ## What looks like an address -/

theorem isAddressLike_eq_isSome (argument : Argument) :
    argument.isAddressLike = argument.address?.isSome := by
  cases argument with
  | bytes content =>
    by_cases counted : content.length = 20 <;>
      simp [isAddressLike, address?, Address.ofBytes?, SizedBytes.ofBytes?, counted]
  | _ => rfl

/-- Nothing else is called an address. -/
theorem readableType_eq_address_iff (argument : Argument) :
    argument.readableType = "address" ↔ argument.isAddressLike = true := by
  unfold readableType
  split
  · next isLike => simp [isLike]
  · next isUnlike => cases argument <;> simp_all [isAddressLike]

theorem coerceText_address (strict : Bool) (argument : Argument) :
    coerceText strict "address" argument = argument.address?.map .address := by
  have parsed : AbiType.parse? "address" = some .address := rfl
  rw [coerceText, parsed, Option.bind_some, coerce]

/-- Forms of the same bytes are interchangeable. At every type of arrays and tuples around addresses,
arguments are coerced alike that differ, at any depth, only in how addresses are supplied: as such,
as twenty bytes or as checksummed text. At every such type around byte strings the same holds of
bytes and of their digits in either case behind `0x`, whether fixed byte strings must be full or
not. What looks like an address, what is called one and what can be coerced to one is the same: the
three forms of an address, and nothing else. -/
theorem coerce_of_interchanged_forms (strict : Bool) :
    (∀ type : AbiType, type.BuiltFrom (· = .address) →
      ∀ left right, Interchanged SameAddress left right →
        coerce strict type left = coerce strict type right ∧
        ∀ text, AbiType.parse? text = some type →
          coerceText strict text left = coerceText strict text right) ∧
    (∀ type : AbiType, type.BuiltFrom AbiType.IsByteString →
      ∀ left right, Interchanged SameBytes left right →
        coerce strict type left = coerce strict type right ∧
        ∀ text, AbiType.parse? text = some type →
          coerceText strict text left = coerceText strict text right) ∧
    ∀ argument : Argument,
      (argument.isAddressLike = true ↔ (coerceText strict "address" argument).isSome = true) ∧
      (argument.isAddressLike = true ↔ argument.readableType = "address") ∧
      (argument.isAddressLike = true ↔ ∃ place, AddressForm place argument) := by
  have named {type : AbiType} {left right : Argument}
      (alike : coerce strict type left = coerce strict type right) (text : String)
      (parsed : AbiType.parse? text = some type) :
      coerceText strict text left = coerceText strict text right := by
    rw [coerceText, coerceText, parsed, Option.bind_some, Option.bind_some, alike]
  refine ⟨?_, ?_, ?_⟩
  · intro type built left right interchanged
    have alike : coerce strict type left = coerce strict type right :=
      coerce_eq_of_sameAddress built interchanged
    exact ⟨alike, named alike⟩
  · intro type built left right interchanged
    have alike : coerce strict type left = coerce strict type right :=
      coerce_eq_of_sameBytes built interchanged
    exact ⟨alike, named alike⟩
  · intro argument
    rw [coerceText_address, Option.isSome_map, isAddressLike_eq_isSome]
    refine ⟨Iff.rfl, ?_, ?_⟩
    · rw [readableType_eq_address_iff, isAddressLike_eq_isSome]
    · simp only [Option.isSome_iff_exists, address?_eq_some_iff]

/-- Addresses and byte strings change their forms inside lists, and are coerced as before. -/
theorem coerce_of_interchanged_forms_of_nested :
    let place : Address := ⟨⟨0xef :: List.replicate 19 0x5a, rfl⟩⟩
    let raw : Argument := .bytes place.bytes.1
    let text : Argument := .text place.checksummed
    let addresses : AbiType := .tuple [.array .address, .address]
    let contents : AbiType := .tuple [.array (.fixedBytes ⟨2, by decide⟩), .bytes]
    let places : Argument := .list [.list [.address place, raw], text]
    let otherPlaces : Argument := .list [.list [text, .address place], raw]
    let bytes : Argument := .list [.list [.bytes [0xab, 0x01], .text "0xab01"], .bytes [0xef]]
    let digits : Argument := .list [.list [.text "0xAb01", .bytes [0xab, 0x01]], .text "0xeF"]
    addresses.BuiltFrom (· = .address) ∧ Interchanged SameAddress places otherPlaces ∧
    AbiType.parse? "(address[],address)" = some addresses ∧
    coerceText true "(address[],address)" places =
      coerceText true "(address[],address)" otherPlaces ∧
    contents.BuiltFrom AbiType.IsByteString ∧ Interchanged SameBytes bytes digits ∧
    AbiType.parse? "(bytes2[],bytes)" = some contents ∧
    coerceText false "(bytes2[],bytes)" bytes = coerceText false "(bytes2[],bytes)" digits := by
  intro place raw text addresses contents places otherPlaces bytes digits
  have builtAddresses : addresses.BuiltFrom (· = .address) := by
    apply AbiType.BuiltFrom.tuple
    simp only [List.forall_mem_cons, List.not_mem_nil, false_implies, implies_true, and_true]
    exact ⟨.array (.leaf rfl), .leaf rfl⟩
  have builtContents : contents.BuiltFrom AbiType.IsByteString := by
    apply AbiType.BuiltFrom.tuple
    simp only [List.forall_mem_cons, List.not_mem_nil, false_implies, implies_true, and_true]
    exact ⟨.array (.leaf (.inr ⟨_, rfl⟩)), .leaf (.inl rfl)⟩
  have asText : SameAddress (.address place) text := ⟨place, .address, .text⟩
  have asAddress : SameAddress raw (.address place) := ⟨place, .bytes, .address⟩
  have asBytes : SameAddress text raw := ⟨place, .text, .bytes⟩
  have otherForms : Interchanged SameAddress places otherPlaces :=
    .list (.cons (.list (.cons (.part asText) (.cons (.part asAddress) .nil)))
      (.cons (.part asBytes) .nil))
  have first : BytesForm [0xab, 0x01] (.text "0xAb01") := bytes?_eq_some_iff.1 rfl
  have second : BytesForm [0xab, 0x01] (.text "0xab01") := bytes?_eq_some_iff.1 rfl
  have third : BytesForm [0xef] (.text "0xeF") := bytes?_eq_some_iff.1 rfl
  have otherCase : Interchanged SameBytes bytes digits :=
    .list (.cons (.list (.cons (.part ⟨_, .bytes, first⟩) (.cons (.part ⟨_, second, .bytes⟩) .nil)))
      (.cons (.part ⟨_, .bytes, third⟩) .nil))
  have parsedAddresses : AbiType.parse? "(address[],address)" = some addresses := by cbv
  have parsedContents : AbiType.parse? "(bytes2[],bytes)" = some contents := by cbv
  obtain ⟨ofAddresses, -, -⟩ := coerce_of_interchanged_forms true
  obtain ⟨-, ofContents, -⟩ := coerce_of_interchanged_forms false
  obtain ⟨-, samePlaces⟩ := ofAddresses addresses builtAddresses places otherPlaces otherForms
  obtain ⟨-, sameContents⟩ := ofContents contents builtContents bytes digits otherCase
  exact ⟨builtAddresses, otherForms, parsedAddresses, samePlaces _ parsedAddresses,
    builtContents, otherCase, parsedContents, sameContents _ parsedContents⟩

end Argument

end ContractAbi
