import ContractAbi.Proofs.Log.Normalization

/-!
# Verdicts of data filters

Each entry of a filter has a verdict on the value at its place, and the first verdict that is no
acceptance decides (`DataFilter.acceptsEach_eq_ok_true_iff`). The decoder gives every entry a value,
unless no type of the filter takes any space, so no restricted entry is passed over
(`DataFilter.passes_sound`).
-/

namespace ContractAbi

variable {codec : Codec}

namespace DataFilter

/-! ## The verdict of one entry -/

/-- A value is accepted when one of the accepted values stands for it and all those in front stand
for something. -/
theorem accepts_eq_ok_true_iff {type : String} {decoded : Value} {candidates : List Argument} :
    (accepts codec type decoded candidates).result = .ok true ↔
      ∃ before candidate after, candidates = before ++ candidate :: after ∧
        (∀ other ∈ before, (codec.coerce type other).isSome = true) ∧
        codec.coerce type candidate = some decoded := by
  induction candidates with
  | nil => simp [accepts]
  | cons candidate others inductionHypothesis =>
    cases coerced : codec.coerce type candidate with
    | none =>
      simp only [accepts, coerced, reduceCtorEq, false_iff]
      rintro ⟨before, taker, after, split, able, taken⟩
      cases before <;> grind
    | some expected =>
      by_cases same : expected = decoded
      · subst same
        simp only [accepts, coerced, ↓reduceIte, true_iff]
        exact ⟨[], candidate, others, rfl, by simp, coerced⟩
      · simp only [accepts, coerced, same, ↓reduceIte, Probed.result_behind, inductionHypothesis]
        constructor
        · rintro ⟨before, taker, after, rfl, able, taken⟩
          exact ⟨candidate :: before, taker, after, rfl,
            List.forall_mem_cons.2 ⟨by simp [coerced], able⟩, taken⟩
        · rintro ⟨before, taker, after, split, able, taken⟩
          cases before with
          | nil => grind
          | cons first before =>
            obtain ⟨rfl, rfl⟩ := List.cons.inj split
            exact ⟨before, taker, after, rfl, (List.forall_mem_cons.1 able).2, taken⟩

/-- When all accepted values stand for something, one of them stands for the value or none does. -/
theorem accepts_of_coerced {type : String} {decoded : Value} {candidates : List Argument}
    (able : ∀ candidate ∈ candidates, (codec.coerce type candidate).isSome = true) :
    ∃ verdict, (accepts codec type decoded candidates).result = .ok verdict ∧
      (verdict = true ↔ ∃ candidate ∈ candidates, codec.coerce type candidate = some decoded) := by
  induction candidates with
  | nil => simp [accepts]
  | cons candidate others inductionHypothesis =>
    obtain ⟨first, othersAble⟩ := List.forall_mem_cons.1 able
    obtain ⟨expected, coerced⟩ := Option.isSome_iff_exists.1 first
    by_cases same : expected = decoded
    · simp [accepts, coerced, same]
    · obtain ⟨verdict, decided, meaning⟩ := inductionHypothesis othersAble
      exact ⟨verdict, by simp [accepts, coerced, same, decided], by simp [meaning, coerced, same]⟩

end DataFilter

namespace FilterEntry

/-- What the entry says about the decoded value at its place. -/
def verdict (codec : Codec) (entry : FilterEntry) (value : Value) : Except FilterError Bool :=
  match entry.accepted with
  | none => .ok true
  | some accepted =>
    (DataFilter.accepts codec entry.type (Value.normalizeText entry.type value) accepted).result

/-- The entry restricts nothing, or one of its accepted values stands for the decoded one. -/
def Allows (codec : Codec) (entry : FilterEntry) (value : Value) : Prop :=
  ∀ accepted, entry.accepted = some accepted →
    ∃ candidate ∈ accepted,
      codec.coerce entry.type candidate = some (Value.normalizeText entry.type value)

variable {entry : FilterEntry}

/-- An entry never accepts a value that it does not allow. -/
theorem allows_of_verdict {value : Value} (accepted : entry.verdict codec value = .ok true) :
    entry.Allows codec value := by
  intro candidates restricted
  simp only [verdict, restricted] at accepted
  obtain ⟨before, candidate, after, rfl, -, taken⟩ :=
    DataFilter.accepts_eq_ok_true_iff.1 accepted
  exact ⟨candidate, by simp, taken⟩

/-- An entry whose accepted values all stand for something accepts exactly what it allows. -/
theorem verdict_of_coerced
    (able : ∀ accepted, entry.accepted = some accepted → ∀ candidate ∈ accepted,
      (codec.coerce entry.type candidate).isSome = true) (value : Value) :
    ∃ verdict, entry.verdict codec value = .ok verdict ∧
      (verdict = true ↔ entry.Allows codec value) := by
  cases restricted : entry.accepted with
  | none => exact ⟨true, by simp [verdict, restricted], by simp [Allows, restricted]⟩
  | some accepted =>
    obtain ⟨answer, decided, meaning⟩ := DataFilter.accepts_of_coerced (able accepted restricted)
    exact ⟨answer, by simpa [verdict, restricted] using decided, by simpa [Allows, restricted]⟩

end FilterEntry

namespace DataFilter

/-! ## The first verdict that is no acceptance -/

/-- The verdict of the first entry decides unless it is an acceptance. -/
theorem result_acceptsEach_cons (entry : FilterEntry) (entries : List FilterEntry) (value : Value)
    (values : List Value) :
    (acceptsEach codec (entry :: entries) (value :: values)).result =
      match entry.verdict codec value with
      | .ok true => (acceptsEach codec entries values).result
      | verdict => verdict := by
  obtain ⟨type, accepted⟩ := entry
  cases accepted with
  | none => rfl
  | some accepted =>
    simp only [acceptsEach, Probed.result_andThen, FilterEntry.verdict]
    split <;> simp_all

/-- Values pass when every entry accepts the one at its place. -/
theorem acceptsEach_eq_ok_true_iff {entries : List FilterEntry} {values : List Value} :
    (acceptsEach codec entries values).result = .ok true ↔
      ∀ pair ∈ entries.zip values, pair.1.verdict codec pair.2 = .ok true := by
  induction entries generalizing values with
  | nil => simp [acceptsEach]
  | cons entry entries inductionHypothesis =>
    cases values with
    | nil => simp [acceptsEach]
    | cons value values =>
      rw [result_acceptsEach_cons, List.zip_cons_cons, List.forall_mem_cons]
      split
      · next accepted => simp [accepted, inductionHypothesis]
      · next refused => exact iff_of_false refused fun each => refused each.1

/-- When all accepted values stand for something, values pass or not by what the entries allow. -/
theorem acceptsEach_of_coerced {entries : List FilterEntry}
    (able : ∀ entry ∈ entries, ∀ accepted, entry.accepted = some accepted →
      ∀ candidate ∈ accepted, (codec.coerce entry.type candidate).isSome = true)
    (values : List Value) :
    ∃ verdict, (acceptsEach codec entries values).result = .ok verdict ∧
      (verdict = true ↔ ∀ pair ∈ entries.zip values, pair.1.Allows codec pair.2) := by
  induction entries generalizing values with
  | nil => exact ⟨true, rfl, by simp⟩
  | cons entry entries inductionHypothesis =>
    cases values with
    | nil => exact ⟨true, by simp [acceptsEach], by simp⟩
    | cons value values =>
      obtain ⟨firstAble, othersAble⟩ := List.forall_mem_cons.1 able
      obtain ⟨first, decided, firstMeaning⟩ :=
        FilterEntry.verdict_of_coerced firstAble value
      rw [result_acceptsEach_cons, decided, List.zip_cons_cons]
      cases first with
      | true =>
        obtain ⟨others, othersDecided, othersMeaning⟩ := inductionHypothesis othersAble values
        refine ⟨others, othersDecided, othersMeaning.trans ?_⟩
        rw [List.forall_mem_cons, and_iff_right (firstMeaning.1 rfl)]
      | false =>
        refine ⟨false, rfl, iff_of_false Bool.false_ne_true fun each => ?_⟩
        exact Bool.false_ne_true (firstMeaning.2 (List.forall_mem_cons.1 each).1)

/-- A restricted filter decides about the values that the data holds. -/
theorem result_passes {filter : DataFilter} (restricted : filter.isEmpty = false) (data : Bytes) :
    (filter.passes codec data).result =
      match codec.decode filter.types data with
      | .error error => .error (.encoding error)
      | .ok values => (acceptsEach codec filter.entries values).result := by
  simp only [passes, restricted, Bool.false_eq_true, ↓reduceIte]
  cases codec.decode filter.types data <;> rfl

/-- A filter without restrictions allows every value. -/
theorem allows_of_isEmpty (codec : Codec) {filter : DataFilter} (empty : filter.isEmpty = true)
    {entry : FilterEntry} (member : entry ∈ filter.entries) (value : Value) :
    entry.Allows codec value := by
  intro accepted restricted
  have unrestricted := List.all_eq_true.1 empty entry member
  simp [restricted] at unrestricted

/-! ## Data of any origin -/

/-- When the types of a filter take no space, no entry is given a value, and all data passes. -/
theorem passes_of_allZeroSized (strict : Bool) (room : Nat) {filter : DataFilter}
    {types : List AbiType}
    (parses : parseTypes filter.types = .ok types)
    (sizeless : AbiType.allZeroSized types = true) (data : Bytes) :
    (filter.passes (Codec.standard strict room) data).result = .ok true := by
  cases empty : filter.isEmpty with
  | true => simp [passes, empty]
  | false =>
    have nothing : (Codec.standard strict room).decode filter.types data = .ok [] := by
      simp [Codec.standard, decodeData, parses, Value.decodeSequence, sizeless, Except.mapError]
    rw [result_passes empty, nothing]
    cases filter.entries <;> simp [acceptsEach]

/-- A restricted entry is never passed over, unless no type of the filter takes any space. When data
passes, each restricted entry has an accepted value that stands for the decoded value at its place,
so a filter with an entry that accepts nothing lets no data pass. -/
theorem passes_sound (strict : Bool) (room : Nat) {filter : DataFilter} {types : List AbiType}
    (parses : parseTypes filter.types = .ok types)
    (sized : filter.isEmpty = false → AbiType.allZeroSized types = false) {data : Bytes}
    (passed : (filter.passes (Codec.standard strict room) data).result = .ok true) :
    (∀ entry ∈ filter.entries, entry.accepted ≠ some []) ∧
    (filter.isEmpty = false → ∃ values,
      (Codec.standard strict room).decode filter.types data = .ok values ∧
      List.Forall₂ (FilterEntry.Allows (Codec.standard strict room)) filter.entries values) := by
  cases empty : filter.isEmpty with
  | true =>
    refine ⟨?_, by simp⟩
    intro entry member acceptsNothing
    obtain ⟨_, absent, -⟩ :=
      allows_of_isEmpty (.standard strict room) empty member default [] acceptsNothing
    cases absent
  | false =>
    rw [result_passes empty] at passed
    cases decoded : (Codec.standard strict room).decode filter.types data with
    | error error => simp [decoded] at passed
    | ok values =>
      simp only [decoded] at passed
      have counted := length_of_decodeData parses (sized empty) decoded
      simp only [DataFilter.types, List.length_map] at counted
      have allowed : List.Forall₂ (FilterEntry.Allows (Codec.standard strict room)) filter.entries
          values := by
        refine List.forall₂_iff_zip.2 ⟨counted.symm, ?_⟩
        intro entry value member
        exact FilterEntry.allows_of_verdict (acceptsEach_eq_ok_true_iff.1 passed _ member)
      refine ⟨?_, fun _ => ⟨values, rfl, allowed⟩⟩
      intro entry member acceptsNothing
      obtain ⟨place, inside, rfl⟩ := List.getElem_of_mem member
      obtain ⟨_, absent, -⟩ := allowed.get inside (counted ▸ inside) [] acceptsNothing
      cases absent

/-- An entry of a type without size is no harm beside one that takes space: the second entry is
still compared. -/
theorem passes_sound_of_pair :
    let filter : DataFilter := ⟨[⟨"()", none⟩, ⟨"bool", some [.bool false, .bool true]⟩]⟩
    let data := Bytes.ofNat 32 1
    AbiType.allZeroSized [.tuple [], .bool] = false ∧
    (filter.passes (.standard true 4096) data).result = .ok true ∧
    (∀ entry ∈ filter.entries, entry.accepted ≠ some []) ∧
    ∃ values, (Codec.standard true 4096).decode filter.types data = .ok values ∧
      List.Forall₂ (FilterEntry.Allows (.standard true 4096)) filter.entries values := by
  intro filter data
  have unit : AbiType.parse "()" = .ok (.tuple []) := by cbv
  have bool : AbiType.parse "bool" = .ok .bool := by cbv
  have parses : parseTypes filter.types = .ok [.tuple [], .bool] := by
    simp [filter, types, parseTypes, unit, bool]
  have read : Value.decodeSequence 4096 [.tuple [], .bool] (Bytes.ofNat 32 1) =
      .ok [.tuple [], .bool true] := by cbv
  have decoded : (Codec.standard true 4096).decode filter.types data =
      .ok [.tuple [], .bool true] := by
    simp [Codec.standard, decodeData, parses, data, read, Except.mapError]
  have coerced (value : Bool) : Argument.coerceText true "bool" (.bool value) =
      some (.bool value) :=
    Argument.coerceText_eq_some_iff.2 ⟨.bool, bool, rfl⟩
  have passed : (filter.passes (.standard true 4096) data).result = .ok true := by
    rw [result_passes rfl, decoded]
    have normal : Value.normalizeText "bool" (.bool true) = .bool true :=
      Value.normalizeText_of_coerceText (coerced true)
    simp [filter, acceptsEach, accepts, coerced, normal]
  obtain ⟨accepting, covered⟩ := passes_sound true 4096 parses (fun _ => rfl) passed
  exact ⟨rfl, passed, accepting, covered rfl⟩

/-- An entry that accepts nothing lets data pass when it is of a type that takes no space. -/
theorem passes_unaccepted_of_unit :
    let filter : DataFilter := ⟨[⟨"()", some []⟩]⟩
    parseTypes filter.types = .ok [.tuple []] ∧ filter.isEmpty = false ∧
    (filter.passes (.standard true 4096) []).result = .ok true := by
  intro filter
  have unit : AbiType.parse "()" = .ok (.tuple []) := by cbv
  have parses : parseTypes filter.types = .ok [.tuple []] := by
    simp [filter, types, parseTypes, unit]
  exact ⟨parses, rfl, passes_of_allZeroSized true 4096 parses rfl []⟩

end DataFilter

end ContractAbi
