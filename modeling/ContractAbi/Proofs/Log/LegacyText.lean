import ContractAbi.Proofs.AbiType.Written
import ContractAbi.Proofs.Call.Dimensions
import ContractAbi.Proofs.Log.Normalization

/-!
# Texts that were decoded as bytes

Older data has byte strings where a type has texts. Normalization gives the texts back and changes
nothing else, however the shape of a value departs from the type
(`Value.normalizeText_restores_legacy`).
-/

namespace ContractAbi

namespace Text

/-- Bytes are read as the one text that has them. -/
theorem ofUtf8?_eq_some_iff {content : Bytes} {text : String} :
    ofUtf8? content = some text ↔ utf8 text = content := by
  constructor
  · intro spelled
    unfold ofUtf8? String.fromUTF8? at spelled
    split at spelled
    · obtain rfl := Option.some.inj spelled
      rfl
    · cases spelled
  · rintro rfl
    exact ofUtf8?_utf8 text

end Text

namespace Value

/-! ## Values with bytes in place of texts -/

/-- The second value is the first with some of its texts, alone or in arrays, replaced by their
UTF-8 bytes. Both have the same nesting and the same numbers of items. -/
inductive Legacy : Value → Value → Prop where
  | kept (value : Value) : Legacy value value
  | bytes (text : String) : Legacy (.string text) (.bytes (Text.utf8 text))
  | array {items legacy : List Value} (each : List.Forall₂ Legacy items legacy) :
    Legacy (.array items) (.array legacy)
  | fixedArray {items legacy : List Value} (each : List.Forall₂ Legacy items legacy) :
    Legacy (.fixedArray items) (.fixedArray legacy)

theorem map_normalize_of_forall₂ {element : AbiType}
    (restores : ∀ {value legacy : Value}, value.HasType element → Legacy value legacy →
      normalize element legacy = value)
    {items legacy : List Value} (typed : AllHaveType items element)
    (each : List.Forall₂ Legacy items legacy) : legacy.map (normalize element) = items := by
  induction each with
  | nil => rfl
  | cons first _ inductionHypothesis =>
    rw [List.map_cons, restores typed.1 first, inductionHypothesis typed.2]

/-- Whichever texts of a typed value were replaced by bytes, normalization gives them back. -/
theorem normalize_of_legacy {type : AbiType} {value legacy : Value} (typed : value.HasType type)
    (replaced : Legacy value legacy) : normalize type legacy = value := by
  induction type generalizing value legacy with
  | string =>
    cases replaced with
    | kept => exact normalize_of_hasType typed
    | bytes text => rw [normalize, Text.ofUtf8?_utf8]
    | array | fixedArray => cases typed
  | array element inductionHypothesis =>
    cases replaced with
    | kept => exact normalize_of_hasType typed
    | array each => rw [normalize, map_normalize_of_forall₂ inductionHypothesis typed each]
    | bytes | fixedArray => cases typed
  | fixedArray element length inductionHypothesis =>
    cases replaced with
    | kept => exact normalize_of_hasType typed
    | fixedArray each => rw [normalize, map_normalize_of_forall₂ inductionHypothesis typed.2 each]
    | bytes | array => cases typed
  | _ =>
    cases replaced with
    | kept => exact normalize_of_hasType typed
    | _ => cases typed

/-! ## What normalization does to any value -/

/-- Normalization leaves a value as it is, reads its bytes as a text, or goes on with each item of
an array. What holds in these cases holds of every value and its normal form. -/
theorem normalize_induction {motive : AbiType → Value → Value → Prop}
    (same : ∀ {type value}, normalize type value = value → motive type value value)
    (text : ∀ content, motive .string (.bytes (Text.utf8 content)) (.string content))
    (array : ∀ {element} items, (∀ item, motive element item (normalize element item)) →
      motive (.array element) (.array items) (.array (items.map (normalize element))))
    (fixedArray : ∀ {element} length items,
      (∀ item, motive element item (normalize element item)) →
      motive (.fixedArray element length) (.fixedArray items)
        (.fixedArray (items.map (normalize element))))
    (type : AbiType) (value : Value) : motive type value (normalize type value) := by
  induction type generalizing value with
  | string =>
    cases value with
    | bytes content =>
      cases read : Text.ofUtf8? content with
      | none =>
        have unchanged : normalize .string (.bytes content) = .bytes content := by
          simp only [normalize, read]
        rw [unchanged]
        exact same unchanged
      | some spelled =>
        obtain rfl := Text.ofUtf8?_eq_some_iff.1 read
        simp only [normalize, read]
        exact text spelled
    | _ => exact same rfl
  | array element inductionHypothesis =>
    cases value with
    | array items => exact array items inductionHypothesis
    | _ => exact same rfl
  | fixedArray element length inductionHypothesis =>
    cases value with
    | fixedArray items => exact fixedArray length items inductionHypothesis
    | _ => exact same rfl
  | _ => exact same rfl

/-- Normalization does nothing but give texts back for their bytes. -/
theorem legacy_normalize (type : AbiType) (value : Value) :
    Legacy (normalize type value) value := by
  have each {element : AbiType} (items : List Value)
      (eachItem : ∀ item, Legacy (normalize element item) item) :
      List.Forall₂ Legacy (items.map (normalize element)) items :=
    List.forall₂_map_left_iff.2 (List.forall₂_same.2 fun item _ => eachItem item)
  refine normalize_induction (motive := fun _ value normal => Legacy normal value)
    ?same ?text ?array ?fixedArray _ _
  case same =>
    intro _ value _
    exact .kept value
  case text => exact Legacy.bytes
  case array =>
    intro _ items inductionHypothesis
    exact .array (each items inductionHypothesis)
  case fixedArray =>
    intro _ _ items inductionHypothesis
    exact .fixedArray (each items inductionHypothesis)

/-- What is normal stays as it is. -/
theorem normalize_normalize (type : AbiType) (value : Value) :
    normalize type (normalize type value) = normalize type value := by
  refine normalize_induction (motive := fun type _ normal => normalize type normal = normal)
    ?same ?text ?array ?fixedArray _ _
  case same =>
    intro _ _ unchanged
    exact unchanged
  case text =>
    intro content
    rfl
  case array =>
    intro _ items inductionHypothesis
    simp [normalize, inductionHypothesis]
  case fixedArray =>
    intro _ _ items inductionHypothesis
    simp [normalize, inductionHypothesis]

/-- Only texts, and arrays of them, have anything to normalize. -/
theorem normalize_of_innermost_ne {type : AbiType} (other : type.dimensions.2 ≠ .string)
    (value : Value) : normalize type value = value := by
  revert other
  refine normalize_induction
    (motive := fun type value normal => type.dimensions.2 ≠ .string → normal = value)
    ?same ?text ?array ?fixedArray _ _
  case same =>
    intros
    rfl
  case text =>
    intro _ other
    exact absurd rfl other
  case array =>
    intro element items inductionHypothesis other
    have unchanged : normalize element = id := funext fun item => inductionHypothesis item other
    rw [unchanged, List.map_id]
  case fixedArray =>
    intro element _ items inductionHypothesis other
    have unchanged : normalize element = id := funext fun item => inductionHypothesis item other
    rw [unchanged, List.map_id]

/-! ## Parts -/

/-- The items of a composite value. -/
def items : Value → List Value
  | .array items | .fixedArray items | .tuple items => items
  | _ => []

/-- The part of a value that the positions of items lead to, from the outside in. -/
def part? : List Nat → Value → Option Value
  | [], value => some value
  | index :: path, value => value.items[index]?.bind (part? path)

/-- Whether a value has the constructor of a type, whatever its width, size or length. -/
def hasHead : Value → AbiType → Bool
  | .bool _, .bool | .uint _ _, .uint _ | .int _ _, .int _ | .fixedBytes _ _, .fixedBytes _
  | .address _, .address | .function _, .function | .bytes _, .bytes | .string _, .string
  | .array _, .array _ | .fixedArray _, .fixedArray _ _ | .tuple _, .tuple _ => true
  | _, _ => false

/-- A value departs from a type when it has another constructor and is not the bytes that may stand
for a text. -/
def Departs (value : Value) (type : AbiType) : Prop :=
  value.hasHead type = false ∧ ¬ (type = .string ∧ ∃ content, value = .bytes content)

/-- A type and a value are gone down together, from arrays to items, to a place in the type and the
part of the value there. The length of a fixed array is not compared. -/
inductive Reaches : AbiType → Value → List Nat → AbiType → Value → Prop where
  | here {type value} : Reaches type value [] type value
  | array {element items index item path place part} (found : items[index]? = some item)
    (below : Reaches element item path place part) :
    Reaches (.array element) (.array items) (index :: path) place part
  | fixedArray {element length items index item path place part}
    (found : items[index]? = some item) (below : Reaches element item path place part) :
    Reaches (.fixedArray element length) (.fixedArray items) (index :: path) place part

variable {type place : AbiType} {value part : Value} {path : List Nat}

theorem part?_cons {index : Nat} :
    value.part? (index :: path) = some part ↔
      ∃ item, value.items[index]? = some item ∧ item.part? path = some part :=
  Option.bind_eq_some_iff

/-- The parts of an item whose neighbours were all changed alike. -/
theorem part?_cons_of_map {items : List Value} {index : Nat} {item : Value}
    (found : items[index]? = some item) {change : Value → Value}
    (mapped : value.items = items.map change) :
    value.part? (index :: path) = (change item).part? path := by
  rw [part?, mapped, List.getElem?_map, found]
  rfl

/-- A part that is gone down to together with the type becomes normal at its place. -/
theorem part?_normalize_of_reaches (reached : Reaches type value path place part) :
    (normalize type value).part? path = some (normalize place part) := by
  induction reached with
  | here => rfl
  | array found _ inductionHypothesis | fixedArray found _ inductionHypothesis =>
    exact (part?_cons_of_map found rfl).trans inductionHypothesis

/-- A part that is not gone down to stays as it is. -/
theorem reaches_or_part?_normalize (type : AbiType) (found : value.part? path = some part) :
    (∃ place, Reaches type value path place part) ∨
      (normalize type value).part? path = some part := by
  -- On the path, so that an array is looked at only where the path goes on into it.
  induction path generalizing type value with
  | nil =>
    obtain rfl := Option.some.inj found
    exact .inl ⟨type, .here⟩
  | cons index path inductionHypothesis =>
    obtain ⟨item, foundItem, below⟩ := part?_cons.1 found
    cases type with
    | string =>
      cases value with
      | bytes content => cases foundItem
      | _ => exact .inr found
    | array element =>
      cases value with
      | array items =>
        rcases inductionHypothesis element below with ⟨place, reached⟩ | same
        · exact .inl ⟨place, .array foundItem reached⟩
        · exact .inr ((part?_cons_of_map foundItem rfl).trans same)
      | _ => exact .inr found
    | fixedArray element length =>
      cases value with
      | fixedArray items =>
        rcases inductionHypothesis element below with ⟨place, reached⟩ | same
        · exact .inl ⟨place, .fixedArray foundItem reached⟩
        · exact .inr ((part?_cons_of_map foundItem rfl).trans same)
      | _ => exact .inr found
    | _ => exact .inr found

/-- A value that departs from a type stays as it is. -/
theorem normalize_of_departs (departs : value.Departs type) : normalize type value = value := by
  revert departs
  refine normalize_induction
    (motive := fun type value normal => value.Departs type → normal = value)
    ?same ?text ?array ?fixedArray _ _
  case same =>
    intros
    rfl
  case text =>
    intro content departs
    exact absurd ⟨rfl, _, rfl⟩ departs.2
  case array =>
    intro _ _ _ departs
    cases departs.1
  case fixedArray =>
    intro _ _ _ _ departs
    cases departs.1

/-- Bytes that spell no text stay as they are at any type. -/
theorem normalize_bytes {content : Bytes} (unspelled : ∀ text, Text.utf8 text ≠ content)
    (type : AbiType) : normalize type (.bytes content) = .bytes content := by
  have unread : Text.ofUtf8? content = none :=
    Option.eq_none_iff_forall_ne_some.2 fun text spelled =>
      unspelled text (Text.ofUtf8?_eq_some_iff.1 spelled)
  cases type with
  | string => simp only [normalize, unread]
  | _ => rfl

theorem normalize_tuple (type : AbiType) (items : List Value) :
    normalize type (.tuple items) = .tuple items := by
  cases type <;> rfl

/-- A part that would stay as it is at any place stays as it is. -/
theorem part?_normalize_of_fixed (type : AbiType) (found : value.part? path = some part)
    (fixed : ∀ place, Reaches type value path place part → normalize place part = part) :
    (normalize type value).part? path = some part := by
  rcases reaches_or_part?_normalize type found with ⟨place, reached⟩ | same
  · rw [part?_normalize_of_reaches reached, fixed place reached]
  · exact same

/-! ## The texts of log data -/

theorem normalizeText_of_parse {text : String} (parsed : AbiType.parse text = .ok type) :
    normalizeText text = normalize type := by
  ext value
  rw [normalizeText, AbiType.parse?_eq_some_iff.2 parsed]

theorem normalizeText_of_unparsable {text : String} {fault : TypeFault}
    (unparsable : AbiType.parse text = .error fault) : normalizeText text = id := by
  ext value
  rw [normalizeText, AbiType.parse?, unparsable]
  rfl

/-- Texts that were decoded as bytes are given back, whichever they are, at every type that has
texts in arrays of any sizes, and each of these types has a text that stands for it. Whatever else
a value is, normalization at a text is idempotent and only gives back texts, so nesting and lengths
stay. Bytes that spell no text and tuples stay at every depth, and so does each part that departs
from its place in the type or is not gone down to together with the type; bytes of a text that are
gone down to a place for texts become that text. Nothing changes at a text that stands for no type,
or for a type with something else than texts inside its arrays. -/
theorem normalizeText_restores_legacy :
    (∀ sizes, AbiType.parse (AbiType.stringText sizes) = .ok (AbiType.string.withSizes sizes)) ∧
    (∀ text type value legacy, AbiType.parse text = .ok type → HasType value type →
      Legacy value legacy → normalizeText text legacy = value) ∧
    ∀ text value,
      normalizeText text (normalizeText text value) = normalizeText text value ∧
      Legacy (normalizeText text value) value ∧
      (∀ path content, value.part? path = some (.bytes content) →
        (∀ spelled, Text.utf8 spelled ≠ content) →
          (normalizeText text value).part? path = some (.bytes content)) ∧
      (∀ path items, value.part? path = some (.tuple items) →
        (normalizeText text value).part? path = some (.tuple items)) ∧
      (∀ fault, AbiType.parse text = .error fault → normalizeText text value = value) ∧
      ∀ type, AbiType.parse text = .ok type →
        (∀ path part, value.part? path = some part →
          (∀ place, Reaches type value path place part → part.Departs place) →
            (normalizeText text value).part? path = some part) ∧
        (∀ path spelled, Reaches type value path .string (.bytes (Text.utf8 spelled)) →
          (normalizeText text value).part? path = some (.string spelled)) ∧
        (type.dimensions.2 ≠ .string → normalizeText text value = value) := by
  refine ⟨AbiType.parse_stringText, ?_, ?_⟩
  · intro text type value legacy parsed typed replaced
    rw [normalizeText_of_parse parsed, normalize_of_legacy typed replaced]
  · intro text value
    cases parsed : AbiType.parse text with
    | error fault =>
      rw [normalizeText_of_unparsable parsed]
      refine ⟨rfl, .kept value, fun _ _ found _ => found, fun _ _ found => found,
        fun _ _ => rfl, ?_⟩
      intro type impossible
      cases impossible
    | ok type =>
      rw [normalizeText_of_parse parsed]
      refine ⟨normalize_normalize type value, legacy_normalize type value, ?_, ?_, ?_, ?_⟩
      · intro path content found unspelled
        exact part?_normalize_of_fixed type found fun place _ => normalize_bytes unspelled place
      · intro path items found
        exact part?_normalize_of_fixed type found fun place _ => normalize_tuple place items
      · intro fault impossible
        cases impossible
      · intro _ sameType
        obtain rfl := Except.ok.inj sameType
        refine ⟨?_, ?_, fun other => normalize_of_innermost_ne other value⟩
        · intro path part found departs
          exact part?_normalize_of_fixed type found fun place reached =>
            normalize_of_departs (departs place reached)
        · intro path spelled reached
          rw [part?_normalize_of_reaches reached, normalize, Text.ofUtf8?_utf8]

/-- One text of a pair is given back whichever it is, also when the other one is missing, and an
array of any length in place of a pair stays. -/
theorem normalizeText_restores_legacy_of_pairs :
    let type : AbiType := .array (.fixedArray .string ⟨2, by decide⟩)
    let pair (first second : Value) : Value := .array [.fixedArray [first, second]]
    let lone (item : Value) : Value := .array [.fixedArray [item]]
    let unsized (item : Value) : Value := .array [.array [item]]
    AbiType.parse "string[2][]" = .ok type ∧
    normalizeText "string[2][]" (pair (.bytes (Text.utf8 "a")) (.string "é")) =
      pair (.string "a") (.string "é") ∧
    (normalizeText "string[2][]" (lone (.bytes (Text.utf8 "é")))).part? [0, 0] =
      some (.string "é") ∧
    (normalizeText "string[2][]" (lone (.bytes [0xff]))).part? [0, 0] = some (.bytes [0xff]) ∧
    (normalizeText "string[2][]" (unsized (.bytes (Text.utf8 "a")))).part? [0] =
      some (.array [.bytes (Text.utf8 "a")]) ∧
    normalizeText "bytes[]" (.array [.bytes (Text.utf8 "a")]) = .array [.bytes (Text.utf8 "a")] ∧
    normalizeText "text" (.bytes (Text.utf8 "a")) = .bytes (Text.utf8 "a") := by
  intro type pair lone unsized
  obtain ⟨written, restores, others⟩ := normalizeText_restores_legacy
  have spelled : AbiType.stringText [some ⟨2, by decide⟩, none] = "string[2][]" := by decide
  have parsed : AbiType.parse "string[2][]" = .ok type := spelled ▸ written _
  have ofBytes : AbiType.parse "bytes[]" = .ok (.array .bytes) := by cbv
  have noType : AbiType.parse "text" = .error (.unknownName "text") := by cbv
  have replaced : Legacy (pair (.string "a") (.string "é"))
      (pair (.bytes (Text.utf8 "a")) (.string "é")) :=
    .array (.cons (.fixedArray (.cons (.bytes "a") (.cons (.kept _) .nil))) .nil)
  have typed : HasType (pair (.string "a") (.string "é")) type :=
    ⟨⟨rfl, trivial, trivial, trivial⟩, trivial⟩
  have reached (item : Value) : Reaches type (lone item) [0, 0] .string item :=
    .array rfl (.fixedArray rfl .here)
  have unspelled : ∀ text, Text.utf8 text ≠ [0xff] := by
    intro text spelled
    have read : Text.ofUtf8? [0xff] = some text := Text.ofUtf8?_eq_some_iff.2 spelled
    have unread : Text.ofUtf8? [0xff] = none := by decide
    cases unread.symm.trans read
  refine ⟨parsed, restores _ type _ _ parsed typed replaced, ?_, ?_, ?_, ?_, ?_⟩
  · exact ((others _ _).2.2.2.2.2 type parsed).2.1 _ _ (reached _)
  · exact (others _ _).2.2.1 _ _ rfl unspelled
  · refine ((others _ _).2.2.2.2.2 type parsed).1 _ _ rfl ?_
    intro place reached
    change Reaches (.array (.fixedArray .string _)) _ [0] place _ at reached
    cases reached with
    | array _ below =>
      cases below with
      | here => exact ⟨rfl, fun bytes => by cases bytes.1⟩
  · exact ((others _ _).2.2.2.2.2 _ ofBytes).2.2 (by simp [AbiType.dimensions])
  · exact (others _ _).2.2.2.2.1 _ noType

end Value

end ContractAbi
