import ContractAbi.Log.Topic
import ContractAbi.Proofs.Bytes.Hex
import Mathlib.Tactic.FinCases

/-!
# Spellings of topics

A topic in text is read as the digits behind its marker (`Topic.toBytes_hex_outcome`). So the
signature hash is recognised in all of its spellings, and it is all that is looked at of the topics
(`Event.stripSignature_outcome`).
-/

namespace ContractAbi

namespace Topic

/-- What may stand in front of the digits of a topic: nothing, or one marker. -/
def markers : List (List Char) := [[], ['0', 'x']]

/-- What is passed over behind that in front of whole pairs of digits: one more marker, also with a
capital letter, or just the letter of it. -/
def strayMarkers : List (List Char) := [['x'], ['X'], ['0', 'x'], ['0', 'X']]

variable {text digits : List Char} {bytes : Bytes}

/-! ## Markers -/

theorem exists_marker (text : List Char) :
    ∃ marker ∈ markers, text = marker ++ dropMarker text := by
  unfold dropMarker
  split
  · exact ⟨['0', 'x'], by simp [markers], rfl⟩
  · exact ⟨[], by simp [markers], rfl⟩

theorem dropMarker_of_digits (areDigits : ∀ char ∈ text, (Hex.digitValue? char).isSome = true) :
    dropMarker text = text := by
  unfold dropMarker
  split
  · cases areDigits 'x' (by simp)
  · rfl

/-- The decoder drops a marker of either case, and nothing else. -/
theorem hexDropMarker_cases (text : List Char) :
    (∃ letter ∈ ['x', 'X'], text = '0' :: letter :: Hex.dropMarker text) ∨
      Hex.dropMarker text = text := by
  unfold Hex.dropMarker
  split
  · exact .inl ⟨'x', by simp, rfl⟩
  · exact .inl ⟨'X', by simp, rfl⟩
  · exact .inr rfl

/-- Digits hold no marker. -/
theorem hexDropMarker_of_digits
    (areDigits : ∀ char ∈ text, (Hex.digitValue? char).isSome = true) :
    Hex.dropMarker text = text := by
  rcases hexDropMarker_cases text with ⟨letter, isLetter, marked⟩ | same
  · have isDigit := areDigits letter (by rw [marked]; simp)
    fin_cases isLetter <;> cases isDigit
  · exact same

/-! ## Filled-up digits -/

theorem byteLength_fillUp (text : List Char) : Hex.byteLength (fillUp text) % 2 = 0 := by
  unfold fillUp
  split
  · have zero : Hex.byteLength ('0' :: text) = 1 + Hex.byteLength text := rfl
    omega
  · omega

/-- A filled-up text is never refused for the number of its bytes. -/
theorem decode_fillUp (text : List Char) :
    Hex.decode (fillUp text) = Hex.decodeDigits 0 (Hex.dropMarker (fillUp text)) := by
  have even := byteLength_fillUp text
  rw [Hex.decode, if_neg (by omega)]

/-- Filled-up digits are whole pairs of digits that spell the same. -/
theorem fillUp_of_digits (areDigits : ∀ char ∈ text, (Hex.digitValue? char).isSome = true) :
    (∀ char ∈ fillUp text, (Hex.digitValue? char).isSome = true) ∧
      (fillUp text).length % 2 = 0 ∧
      ∀ bytes, Hex.Spells (fillUp text) bytes ↔ Hex.Spells text bytes := by
  rw [fillUp, Hex.byteLength_of_digits areDigits]
  split
  · next odd =>
    exact ⟨List.forall_mem_cons.2 ⟨rfl, areDigits⟩, by rw [List.length_cons]; omega,
      fun bytes => Hex.spells_zero_cons odd⟩
  · next even => exact ⟨areDigits, by omega, fun bytes => Iff.rfl⟩

/-- Digits of any number are read as the bytes that they spell. -/
theorem decode_fillUp_of_spells (spelled : Hex.Spells digits bytes) :
    Hex.decode (fillUp digits) = .ok bytes := by
  obtain ⟨areDigits, even, sameBytes⟩ := fillUp_of_digits (Hex.digits_of_foldlM spelled.1)
  rw [decode_fillUp, hexDropMarker_of_digits areDigits, Hex.decodeDigits_eq_ok_iff]
  exact ⟨even, (sameBytes bytes).2 spelled⟩

/-- A stray marker counts as the one of the decoder when whole pairs of digits follow. -/
theorem decode_fillUp_of_stray {stray : List Char} (isStray : stray ∈ strayMarkers)
    (even : digits.length % 2 = 0) (spelled : Hex.Spells digits bytes) :
    Hex.decode (fillUp (stray ++ digits)) = .ok bytes := by
  have narrow := Hex.byteLength_of_digits (Hex.digits_of_foldlM spelled.1)
  have wide : Hex.byteLength (stray ++ digits) = stray.length + digits.length := by
    rw [← narrow]
    fin_cases isStray
    · rfl
    · rfl
    · exact (Nat.add_assoc 1 1 _).symm
    · exact (Nat.add_assoc 1 1 _).symm
  have dropped : Hex.dropMarker (fillUp (stray ++ digits)) = digits := by
    rw [fillUp, wide]
    fin_cases isStray
    · rw [if_pos (by simp; omega)]
      rfl
    · rw [if_pos (by simp; omega)]
      rfl
    · rw [if_neg (by simp; omega)]
      rfl
    · rw [if_neg (by simp; omega)]
      rfl
  rw [decode_fillUp, dropped, Hex.decodeDigits_eq_ok_iff]
  exact ⟨even, spelled⟩

/-- What is read are digits, with at most a stray marker in front of them. -/
theorem exists_stray_of_decode (read : Hex.decode (fillUp text) = .ok bytes) :
    ∃ stray digits, text = stray ++ digits ∧ Hex.Spells digits bytes ∧
      (stray = [] ∨ stray ∈ strayMarkers ∧ digits.length % 2 = 0) := by
  rw [decode_fillUp, Hex.decodeDigits_eq_ok_iff] at read
  obtain ⟨even, spelled⟩ := read
  rcases hexDropMarker_cases (fillUp text) with ⟨letter, isLetter, marked⟩ | unmarked
  · -- The marker is all of the text's own, or its zero was filled up.
    generalize Hex.dropMarker (fillUp text) = digits at *
    unfold fillUp at marked
    split at marked
    · obtain ⟨-, rfl⟩ := List.cons.inj marked
      refine ⟨[letter], digits, rfl, spelled, .inr ⟨?_, even⟩⟩
      fin_cases isLetter <;> simp [strayMarkers]
    · subst marked
      refine ⟨['0', letter], digits, rfl, spelled, .inr ⟨?_, even⟩⟩
      fin_cases isLetter <;> simp [strayMarkers]
  · rw [unmarked] at even spelled
    unfold fillUp at even spelled
    refine ⟨[], text, rfl, ?_, .inl rfl⟩
    split at spelled
    · rw [if_pos ‹_›, List.length_cons] at even
      exact (Hex.spells_zero_cons (by omega)).1 spelled
    · exact spelled

/-- Digits are read behind one marker or none, and behind a stray one if they are whole pairs. -/
theorem decode_of_marked {marker stray : List Char} (isMarker : marker ∈ markers)
    (spelled : Hex.Spells digits bytes)
    (passed : stray = [] ∨ stray ∈ strayMarkers ∧ digits.length % 2 = 0) :
    Hex.decode (fillUp (dropMarker (marker ++ (stray ++ digits)))) = .ok bytes := by
  have behind : Hex.decode (fillUp (stray ++ digits)) = .ok bytes := by
    rcases passed with rfl | ⟨isStray, even⟩
    · exact decode_fillUp_of_spells spelled
    · exact decode_fillUp_of_stray isStray even spelled
  fin_cases isMarker
  · rcases passed with rfl | ⟨isStray, even⟩
    · change Hex.decode (fillUp (dropMarker digits)) = .ok bytes
      rw [dropMarker_of_digits (Hex.digits_of_foldlM spelled.1)]
      exact behind
    · -- A stray `0x` is the marker of the topic itself here, and the other ones stay.
      fin_cases isStray
      · exact behind
      · exact behind
      · exact decode_fillUp_of_spells spelled
      · exact behind
  · exact behind

/-- Nor is it refused for the number of its digits. -/
theorem decode_fillUp_ne_odd (text : List Char) :
    Hex.decode (fillUp text) ≠ .error .oddLength := by
  intro refused
  rw [decode_fillUp] at refused
  obtain ⟨areDigits, odd⟩ := Hex.odd_of_decodeDigits refused
  have narrow := Hex.byteLength_of_digits areDigits
  have even := byteLength_fillUp text
  rcases hexDropMarker_cases (fillUp text) with ⟨letter, isLetter, marked⟩ | unmarked
  · have wide : Hex.byteLength (fillUp text) =
        1 + (1 + Hex.byteLength (Hex.dropMarker (fillUp text))) := by
      rw [marked]
      fin_cases isLetter <;> rfl
    omega
  · rw [unmarked] at narrow odd
    omega

/-! ## The bytes of a topic -/

/-- A text is read as a topic when digits of either case stand behind at most one marker, whatever
their number: it then stands for the bytes that they spell. Only in front of whole pairs of digits
is a stray marker passed over too. Every other text is refused as it was given, for a character of
it and never for the number of its digits. -/
theorem toBytes_hex_outcome (text : String) :
    (∀ bytes, (Topic.hex text).toBytes = .ok bytes ↔
      ∃ marker ∈ markers, ∃ stray digits, text.toList = marker ++ (stray ++ digits) ∧
        Hex.Spells digits bytes ∧
        (stray = [] ∨ stray ∈ strayMarkers ∧ digits.length % 2 = 0)) ∧
    (∀ error, (Topic.hex text).toBytes = .error error →
      ∃ byte position, error = .invalidTopic text (.invalidDigit byte position)) := by
  constructor
  · intro bytes
    rw [toBytes, Outcome.mapError_eq_ok]
    constructor
    · intro read
      obtain ⟨marker, isMarker, marked⟩ := exists_marker text.toList
      obtain ⟨stray, digits, split, spelled, passed⟩ := exists_stray_of_decode read
      exact ⟨marker, isMarker, stray, digits, by rw [← split, ← marked], spelled, passed⟩
    · rintro ⟨marker, isMarker, stray, digits, split, spelled, passed⟩
      rw [split]
      exact decode_of_marked isMarker spelled passed
  · intro error refused
    obtain ⟨fault, unread, rfl⟩ := Outcome.mapError_eq_error.1 refused
    cases fault with
    | oddLength => exact absurd unread (decode_fillUp_ne_odd _)
    | invalidDigit byte position => exact ⟨byte, position, rfl⟩

/-- An odd number of digits is filled up, and a refused text is told to be so. -/
theorem toBytes_hex_outcome_of_odd :
    (Topic.hex "0xA12").toBytes = .ok [0x0a, 0x12] ∧
    ∃ byte position, (Topic.hex "0xA1g").toBytes =
      .error (.invalidTopic "0xA1g" (.invalidDigit byte position)) := by
  constructor
  · exact ((toBytes_hex_outcome "0xA12").1 _).2
      ⟨['0', 'x'], by simp [markers], [], ['A', '1', '2'], rfl, ⟨by decide, rfl⟩, .inl rfl⟩
  · have refused : (Topic.hex "0xA1g").toBytes =
        .error (.invalidTopic "0xA1g" (.invalidDigit 0x67 3)) := by decide
    obtain ⟨byte, position, same⟩ := (toBytes_hex_outcome "0xA1g").2 _ refused
    exact ⟨byte, position, same ▸ refused⟩

/-- Texts that are no digits behind their marker are read, and whether such a text is read hangs on
the number of its characters. -/
theorem toBytes_hex_of_second_marker :
    Hex.number? (dropMarker "0x0x12".toList) = none ∧
    (Topic.hex "0x0x12").toBytes = .ok [0x12] ∧ (Topic.hex "x12").toBytes = .ok [0x12] ∧
    (Topic.hex "0X12").toBytes = .ok [0x12] ∧
    (Topic.hex "0X1").toBytes = .error (.invalidTopic "0X1" (.invalidDigit 0x58 2)) := by
  decide

/-! ## Spellings -/

/-- The spellings of bytes as a topic: the bytes themselves, or their digits in any case behind at
most one marker, of which the first may be left out when it is zero. -/
inductive Spelling (bytes : Bytes) : Topic → Prop where
  | raw : Spelling bytes (.raw bytes)
  | full {marker digits : List Char} (isMarker : marker ∈ markers)
    (written : digits.map Char.toLower = Hex.digits bytes) :
    Spelling bytes (.hex (String.ofList (marker ++ digits)))
  | shortened {marker digits : List Char} (isMarker : marker ∈ markers)
    (written : '0' :: digits.map Char.toLower = Hex.digits bytes) :
    Spelling bytes (.hex (String.ofList (marker ++ digits)))

theorem toBytes_of_spells {marker : List Char} (isMarker : marker ∈ markers)
    (spelled : Hex.Spells digits bytes) :
    (Topic.hex (String.ofList (marker ++ digits))).toBytes = .ok bytes := by
  have noStray : ([] : List Char) = [] ∨ [] ∈ strayMarkers ∧ digits.length % 2 = 0 := .inl rfl
  have read := decode_of_marked isMarker spelled noStray
  rw [List.nil_append] at read
  rw [toBytes, String.toList_ofList, Outcome.mapError_eq_ok, read]

theorem Spelling.toBytes_eq {topic : Topic} (spelling : Spelling bytes topic) :
    topic.toBytes = .ok bytes := by
  cases spelling with
  | raw => rfl
  | full isMarker written => exact toBytes_of_spells isMarker (Hex.spells_of_toLower written).2
  | shortened isMarker written =>
    exact toBytes_of_spells isMarker (Hex.spells_of_zero_toLower written)

end Topic

namespace Event

variable {event : Event} {codec : Codec} {first : Topic} {rest : List Topic}

/-- The topics of a log that is not anonymous are those behind the signature hash, if that is what
the first one stands for. -/
theorem stripSignature_cons (signed : event.anonymous = false) :
    event.stripSignature codec (some (first :: rest)) =
      match first.toBytes with
      | .error error => .error error
      | .ok actual =>
        if actual = (codec.signatureHash event).1 then .ok rest
        else .error (.signatureMismatch (codec.signatureHash event) actual) := by
  simp only [stripSignature, signed, Bool.false_eq_true, ↓reduceIte, Option.getD_some]
  cases first.toBytes <;> rfl

/-- An anonymous event gets all topics back, whatever they are. For any other event there has to be
a first topic, and it alone decides: the topics behind it are handed back when it stands for the
signature hash, which it does in every spelling, and otherwise they make no difference to the
error. -/
theorem stripSignature_outcome (event : Event) (codec : Codec) :
    (event.anonymous = true →
      event.stripSignature codec none = .ok [] ∧
      ∀ topics, event.stripSignature codec (some topics) = .ok topics) ∧
    (event.anonymous = false →
      event.stripSignature codec none = .error .missingTopics ∧
      event.stripSignature codec (some []) = .error .missingTopics ∧
      ∀ first rest,
        (∀ remaining, event.stripSignature codec (some (first :: rest)) = .ok remaining ↔
          first.toBytes = .ok (codec.signatureHash event).1 ∧ remaining = rest) ∧
        (∀ actual, first.toBytes = .ok actual → actual ≠ (codec.signatureHash event).1 →
          event.stripSignature codec (some (first :: rest)) =
            .error (.signatureMismatch (codec.signatureHash event) actual)) ∧
        (∀ error, first.toBytes = .error error →
          event.stripSignature codec (some (first :: rest)) = .error error ∧
          ∃ text fault, first = .hex text ∧ error = .invalidTopic text fault) ∧
        (∀ others, event.stripSignature codec (some (first :: others)) =
          (fun _ => others) <$> event.stripSignature codec (some (first :: rest))) ∧
        (Topic.Spelling (codec.signatureHash event).1 first →
          event.stripSignature codec (some (first :: rest)) = .ok rest)) := by
  constructor
  · intro anonymous
    simp [stripSignature, anonymous]
  · intro signed
    refine ⟨by simp [stripSignature, signed], by simp [stripSignature, signed], ?_⟩
    intro first rest
    refine ⟨?_, ?_, ?_, ?_, ?_⟩
    · intro remaining
      rw [stripSignature_cons signed]
      cases read : first.toBytes with
      | error => simp
      | ok actual => by_cases same : actual = (codec.signatureHash event).1 <;> simp [same, eq_comm]
    · intro actual read differs
      rw [stripSignature_cons signed, read]
      exact if_neg differs
    · intro error unread
      refine ⟨by rw [stripSignature_cons signed, unread], ?_⟩
      cases first with
      | raw => cases unread
      | hex text =>
        obtain ⟨fault, -, same⟩ := Outcome.mapError_eq_error.1 unread
        exact ⟨text, fault, rfl, same.symm⟩
    · intro others
      rw [stripSignature_cons signed, stripSignature_cons signed]
      cases first.toBytes with
      | error => rfl
      | ok actual => by_cases same : actual = (codec.signatureHash event).1 <;> simp [same]
    · intro spelling
      rw [stripSignature_cons signed, spelling.toBytes_eq]
      exact if_pos rfl

/-- A hash is recognised by capital digits of which the leading zero is left out. -/
theorem stripSignature_outcome_of_shortened :
    let event : Event := ⟨"Ping", [], false⟩
    let hash : Word := ⟨0x0a :: List.replicate 31 0xab, rfl⟩
    let codec : Codec := { Codec.standard true 4096 with signatureHash := fun _ => hash }
    let digits := 'A' :: (List.replicate 31 ['A', 'B']).flatten
    let first := Topic.hex (String.ofList (['0', 'x'] ++ digits))
    event.stripSignature codec (some [first, .hex "zz"]) = .ok [.hex "zz"] ∧
    event.stripSignature codec (some [.hex "12", .hex "zz"]) =
      .error (.signatureMismatch hash [0x12]) ∧
    (⟨"Ping", [], true⟩ : Event).stripSignature codec (some [.hex "zz"]) = .ok [.hex "zz"] := by
  intro event hash codec digits first
  have signed := (stripSignature_outcome event codec).2 rfl
  have spelling : Topic.Spelling hash.1 first :=
    .shortened (by simp [Topic.markers]) (by decide)
  obtain ⟨-, -, -, -, stripped⟩ := signed.2.2 first [.hex "zz"]
  obtain ⟨-, differing, -⟩ := signed.2.2 (.hex "12") [.hex "zz"]
  exact ⟨stripped spelling, differing [0x12] (by decide) (by decide),
    ((stripSignature_outcome ⟨"Ping", [], true⟩ codec).1 rfl).2 _⟩

end Event

end ContractAbi
