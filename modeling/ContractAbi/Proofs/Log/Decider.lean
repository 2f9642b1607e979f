import ContractAbi.Proofs.Log.DataFilter

/-!
# The entry that decides

The first entry that does not accept its value decides about the data, by its first accepted value
that stands for nothing if it has one (`DataFilter.passes_decided_by_first`). What stands behind the
deciding entry or value makes no difference.
-/

namespace ContractAbi

variable {codec : Codec}

namespace FilterEntry

/-- An entry accepts a value when it restricts nothing, or one of its values stands for the decoded
one and all those in front of that stand for something. -/
def Accepts (codec : Codec) (entry : FilterEntry) (value : Value) : Prop :=
  ∀ accepted, entry.accepted = some accepted →
    ∃ before candidate after, accepted = before ++ candidate :: after ∧
      (∀ other ∈ before, (codec.coerce entry.type other).isSome = true) ∧
      codec.coerce entry.type candidate = some (Value.normalizeText entry.type value)

/-- What an entry says about a value that it does not accept: its first value that stands for
nothing is an error. -/
def refusal (codec : Codec) (entry : FilterEntry) : Except FilterError Bool :=
  match (entry.accepted.getD []).find? fun candidate =>
    (codec.coerce entry.type candidate).isNone with
  | some candidate => .error (.invalidValue entry.type candidate)
  | none => .ok false

variable {entry : FilterEntry} {value : Value}

theorem verdict_eq_ok_true_iff :
    entry.verdict codec value = .ok true ↔ entry.Accepts codec value := by
  cases restricted : entry.accepted with
  | none => simp [verdict, Accepts, restricted]
  | some accepted =>
    simp only [verdict, Accepts, restricted, Option.some.injEq, forall_eq']
    exact DataFilter.accepts_eq_ok_true_iff

end FilterEntry

/-- What is tried in vain is refused for the first of it that stands for nothing. -/
theorem DataFilter.accepts_of_ne {type : String} {decoded : Value} {candidates : List Argument}
    (refused : (accepts codec type decoded candidates).result ≠ .ok true) :
    (accepts codec type decoded candidates).result =
      FilterEntry.refusal codec ⟨type, some candidates⟩ := by
  induction candidates with
  | nil => rfl
  | cons candidate others inductionHypothesis =>
    cases coerced : codec.coerce type candidate with
    | none => simp [accepts, FilterEntry.refusal, coerced]
    | some expected =>
      by_cases same : expected = decoded
      · simp [accepts, coerced, same] at refused
      · simp only [accepts, coerced, same, ↓reduceIte, Probed.result_behind] at refused ⊢
        rw [inductionHypothesis refused]
        simp [FilterEntry.refusal, coerced]

namespace FilterEntry

variable {entry other : FilterEntry} {value : Value}

theorem verdict_of_not_accepts (refused : ¬ entry.Accepts codec value) :
    entry.verdict codec value = entry.refusal codec := by
  have notTrue : entry.verdict codec value ≠ .ok true := mt verdict_eq_ok_true_iff.1 refused
  obtain ⟨type, accepted⟩ := entry
  cases accepted with
  | none => exact absurd rfl notTrue
  | some accepted => exact DataFilter.accepts_of_ne notTrue

theorem refusal_ne_ok_true : entry.refusal codec ≠ .ok true := by
  unfold refusal
  split <;> simp

/-! ## Entries with other values -/

/-- The same entry with more values behind those that it accepts. -/
inductive Extends : FilterEntry → FilterEntry → Prop where
  | unrestricted (type : String) : Extends ⟨type, none⟩ ⟨type, none⟩
  | more (type : String) (accepted others : List Argument) :
    Extends ⟨type, some accepted⟩ ⟨type, some (accepted ++ others)⟩

/-- The same entry with the same values in any order, each of them any number of times. -/
inductive SameValues : FilterEntry → FilterEntry → Prop where
  | unrestricted (type : String) : SameValues ⟨type, none⟩ ⟨type, none⟩
  | same (type : String) {accepted others : List Argument}
    (members : ∀ candidate, candidate ∈ accepted ↔ candidate ∈ others) :
    SameValues ⟨type, some accepted⟩ ⟨type, some others⟩

/-- The same entry, but for values behind one that settles the verdict about the decoded value: one
that stands for it, or for nothing at all. -/
inductive SameUpToSettled (codec : Codec) (value : Value) : FilterEntry → FilterEntry → Prop where
  | same (entry : FilterEntry) : SameUpToSettled codec value entry entry
  | settled {type : String} {before : List Argument} {candidate : Argument}
    (settles : codec.coerce type candidate = none ∨
      codec.coerce type candidate = some (Value.normalizeText type value))
    (after others : List Argument) :
    SameUpToSettled codec value ⟨type, some (before ++ candidate :: after)⟩
      ⟨type, some (before ++ candidate :: others)⟩

/-- An entry of the same type that restricts its place if the other one does. -/
def SamePlace (entry other : FilterEntry) : Prop :=
  other.type = entry.type ∧ other.accepted.isNone = entry.accepted.isNone

theorem Extends.samePlace (longer : entry.Extends other) : entry.SamePlace other := by
  cases longer <;> exact ⟨rfl, rfl⟩

theorem SameValues.samePlace (same : entry.SameValues other) : entry.SamePlace other := by
  cases same <;> exact ⟨rfl, rfl⟩

theorem SameUpToSettled.samePlace (same : entry.SameUpToSettled codec value other) :
    entry.SamePlace other := by
  cases same <;> exact ⟨rfl, rfl⟩

theorem Extends.accepts (longer : entry.Extends other) (accepts : entry.Accepts codec value) :
    other.Accepts codec value := by
  cases longer with
  | unrestricted => exact accepts
  | more type accepted others =>
    intro all restricted
    obtain rfl := Option.some.inj restricted
    obtain ⟨before, candidate, after, rfl, able, taken⟩ := accepts accepted rfl
    exact ⟨before, candidate, after ++ others, by simp, able, taken⟩

theorem SameValues.allows_iff (same : entry.SameValues other) :
    other.Allows codec value ↔ entry.Allows codec value := by
  cases same with
  | unrestricted => rfl
  | same type members => simp [Allows, members]

end FilterEntry

namespace DataFilter

/-- An accepted value that settles the verdict ends the search, whatever stands behind it. -/
theorem accepts_of_settled {type : String} {decoded : Value} {candidate : Argument}
    (settles : codec.coerce type candidate = none ∨ codec.coerce type candidate = some decoded)
    (before after others : List Argument) :
    (accepts codec type decoded (before ++ candidate :: after)).result =
      (accepts codec type decoded (before ++ candidate :: others)).result := by
  induction before with
  | nil => rcases settles with coerced | coerced <;> simp [accepts, coerced]
  | cons first before inductionHypothesis =>
    cases coerced : codec.coerce type first with
    | none => simp [accepts, coerced]
    | some expected =>
      by_cases same : expected = decoded <;> simp [accepts, coerced, same, inductionHypothesis]

theorem verdict_of_sameUpToSettled {entry other : FilterEntry} {value : Value}
    (same : entry.SameUpToSettled codec value other) :
    other.verdict codec value = entry.verdict codec value := by
  cases same with
  | same => rfl
  | settled settles after others => exact accepts_of_settled settles _ others after

/-! ## The first entry that does not accept -/

/-- The entry at a place is the first one that does not accept the value at its place. -/
inductive FirstRefused (codec : Codec) :
    List FilterEntry → List Value → (place : Nat) → FilterEntry → Prop where
  | here {entry : FilterEntry} {entries : List FilterEntry} {value : Value} {values : List Value}
    (refuses : ¬ entry.Accepts codec value) :
    FirstRefused codec (entry :: entries) (value :: values) 0 entry
  | later {first entry : FilterEntry} {entries : List FilterEntry} {value : Value}
    {values : List Value} {place : Nat} (accepts : first.Accepts codec value)
    (others : FirstRefused codec entries values place entry) :
    FirstRefused codec (first :: entries) (value :: values) (place + 1) entry

variable {entries others : List FilterEntry} {values otherValues : List Value} {place : Nat}
  {entry : FilterEntry}

theorem exists_firstRefused
    (refused : ¬ ∀ pair ∈ entries.zip values, pair.1.Accepts codec pair.2) :
    ∃ place entry, FirstRefused codec entries values place entry := by
  induction entries generalizing values with
  | nil => simp at refused
  | cons first entries inductionHypothesis =>
    cases values with
    | nil => simp at refused
    | cons value values =>
      rw [List.zip_cons_cons, List.forall_mem_cons] at refused
      by_cases accepts : first.Accepts codec value
      · obtain ⟨place, entry, found⟩ := inductionHypothesis fun each => refused ⟨accepts, each⟩
        exact ⟨place + 1, entry, .later accepts found⟩
      · exact ⟨0, first, .here accepts⟩

/-- The first entry that does not accept decides alone. -/
theorem FirstRefused.result_eq (first : FirstRefused codec entries values place entry) :
    (acceptsEach codec entries values).result = entry.refusal codec := by
  induction first with
  | here refuses =>
    have refused := FilterEntry.verdict_of_not_accepts refuses
    rw [result_acceptsEach_cons, refused]
    split
    · next isTrue => exact absurd isTrue FilterEntry.refusal_ne_ok_true
    · rfl
  | later accepts _ inductionHypothesis =>
    rw [result_acceptsEach_cons, FilterEntry.verdict_eq_ok_true_iff.2 accepts, inductionHypothesis]

/-- Nothing behind the first entry that does not accept counts. -/
theorem FirstRefused.of_take (first : FirstRefused codec entries values place entry)
    (sameEntries : others.take (place + 1) = entries.take (place + 1))
    (sameValues : otherValues.take (place + 1) = values.take (place + 1)) :
    FirstRefused codec others otherValues place entry := by
  induction first generalizing others otherValues with
  | here refuses =>
    cases others with
    | nil => cases sameEntries
    | cons =>
      cases otherValues with
      | nil => cases sameValues
      | cons =>
        obtain ⟨rfl, -⟩ := List.cons.inj sameEntries
        obtain ⟨rfl, -⟩ := List.cons.inj sameValues
        exact .here refuses
  | later accepts _ inductionHypothesis =>
    cases others with
    | nil => cases sameEntries
    | cons =>
      cases otherValues with
      | nil => cases sameValues
      | cons =>
        obtain ⟨rfl, restEntries⟩ := List.cons.inj sameEntries
        obtain ⟨rfl, restValues⟩ := List.cons.inj sameValues
        exact .later accepts (inductionHypothesis restEntries restValues)

theorem FirstRefused.exists_refused (first : FirstRefused codec entries values place entry) :
    entry ∈ entries ∧ ∃ value, ¬ entry.Accepts codec value := by
  induction first with
  | here refuses => exact ⟨List.mem_cons_self, _, refuses⟩
  | later _ _ inductionHypothesis =>
    exact ⟨List.mem_cons_of_mem _ inductionHypothesis.1, inductionHypothesis.2⟩

/-- Only a restricted entry refuses a value. -/
theorem FirstRefused.isEmpty_eq_false {filter : DataFilter}
    (first : FirstRefused codec filter.entries values place entry) : filter.isEmpty = false := by
  obtain ⟨member, value, refuses⟩ := first.exists_refused
  rw [Bool.eq_false_iff]
  intro empty
  refine refuses fun accepted restricted => ?_
  have unrestricted := List.all_eq_true.1 empty entry member
  simp [restricted] at unrestricted

/-! ## Filters with other entries -/

/-- Entries with the same verdicts come to the same end. -/
theorem result_acceptsEach_congr (counted : values.length = entries.length)
    (same : List.Forall₂ (fun pair other => other.verdict codec pair.2 = pair.1.verdict codec pair.2)
      (entries.zip values) others) :
    (acceptsEach codec others values).result = (acceptsEach codec entries values).result := by
  induction entries generalizing values others with
  | nil =>
    cases same
    rfl
  | cons entry entries inductionHypothesis =>
    cases values with
    | nil => cases counted
    | cons value values =>
      cases same with
      | cons first rest =>
        rw [result_acceptsEach_cons, result_acceptsEach_cons, first,
          inductionHypothesis (Nat.succ.inj counted) rest]

/-- What holds of entries side by side holds of them beside the decoded values. -/
theorem forall₂_zip {relation : FilterEntry → FilterEntry → Prop}
    (counted : values.length = entries.length) :
    List.Forall₂ (fun pair other => relation pair.1 other) (entries.zip values) others ↔
      List.Forall₂ relation entries others := by
  have fronts : (entries.zip values).map Prod.fst = entries :=
    List.map_fst_zip (Nat.le_of_eq counted.symm)
  conv_rhs => rw [← fronts]
  rw [List.forall₂_map_left_iff]

theorem types_and_isEmpty_of_samePlaces {filter other : DataFilter}
    (same : List.Forall₂ FilterEntry.SamePlace filter.entries other.entries) :
    other.types = filter.types ∧ other.isEmpty = filter.isEmpty := by
  obtain ⟨entries⟩ := filter
  obtain ⟨others⟩ := other
  simp only [types, isEmpty] at same ⊢
  induction same with
  | nil => exact ⟨rfl, rfl⟩
  | cons first _ inductionHypothesis =>
    simp [first.1, first.2, inductionHypothesis.1, inductionHypothesis.2]

variable {filter other : DataFilter} {data : Bytes}

/-- A filter with other values in the same places decides about the same decoded values. -/
theorem result_passes_of_samePlaces (restricted : filter.isEmpty = false)
    (decoded : codec.decode filter.types data = .ok values)
    (same : List.Forall₂ FilterEntry.SamePlace filter.entries other.entries) :
    (other.passes codec data).result = (acceptsEach codec other.entries values).result := by
  obtain ⟨sameTypes, sameEmpty⟩ := types_and_isEmpty_of_samePlaces same
  rw [result_passes (sameEmpty.trans restricted), sameTypes, decoded]

/-- More accepted values at the end of an entry's list take no acceptance back. -/
theorem acceptsEach_of_extends (longer : List.Forall₂ FilterEntry.Extends entries others)
    (passed : (acceptsEach codec entries values).result = .ok true) :
    (acceptsEach codec others values).result = .ok true := by
  induction longer generalizing values with
  | nil => simp [acceptsEach]
  | cons first _ inductionHypothesis =>
    cases values with
    | nil => simp [acceptsEach]
    | cons value values =>
      rw [acceptsEach_eq_ok_true_iff, List.zip_cons_cons, List.forall_mem_cons,
        ← acceptsEach_eq_ok_true_iff, FilterEntry.verdict_eq_ok_true_iff] at passed ⊢
      exact ⟨first.accepts passed.1, inductionHypothesis passed.2⟩

/-- When all accepted values stand for something, only which values they are counts. -/
theorem verdict_of_sameValues {entry other : FilterEntry} (same : entry.SameValues other)
    (able : ∀ accepted, entry.accepted = some accepted → ∀ candidate ∈ accepted,
      (codec.coerce entry.type candidate).isSome = true) (value : Value) :
    other.verdict codec value = entry.verdict codec value := by
  have otherAble : ∀ accepted, other.accepted = some accepted → ∀ candidate ∈ accepted,
      (codec.coerce other.type candidate).isSome = true := by
    cases same with
    | unrestricted => exact able
    | same type members =>
      intro accepted restricted candidate member
      obtain rfl := Option.some.inj restricted
      exact able _ rfl candidate ((members candidate).2 member)
  obtain ⟨verdict, decided, meaning⟩ := FilterEntry.verdict_of_coerced able value
  obtain ⟨otherVerdict, otherDecided, otherMeaning⟩ :=
    FilterEntry.verdict_of_coerced otherAble value
  have sameVerdict : otherVerdict = verdict :=
    Bool.eq_iff_iff.2 (otherMeaning.trans (same.allows_iff.trans meaning.symm))
  rw [decided, otherDecided, sameVerdict]

/-! ## The verdict of a filter -/

/-- Data with a value for each entry passes a restricted filter exactly when every entry accepts its
value. Otherwise the first entry that does not decides alone: its first accepted value that stands
for nothing is an error, and without one the data does not pass. So nothing behind that entry
counts, and in the list of an entry nothing behind the first value that stands for the decoded one
or for nothing. Values added to a list take no acceptance back, and when all accepted values stand
for something, neither their order nor their number counts. -/
theorem passes_decided_by_first (restricted : filter.isEmpty = false)
    (decoded : codec.decode filter.types data = .ok values)
    (counted : values.length = filter.entries.length) :
    ((filter.passes codec data).result = .ok true ↔
      ∀ pair ∈ filter.entries.zip values, pair.1.Accepts codec pair.2) ∧
    ((filter.passes codec data).result ≠ .ok true →
      ∃ place entry, FirstRefused codec filter.entries values place entry ∧
        (filter.passes codec data).result = entry.refusal codec ∧
        ∀ (other : DataFilter) (otherData : Bytes) (otherValues : List Value),
          codec.decode other.types otherData = .ok otherValues →
          other.entries.take (place + 1) = filter.entries.take (place + 1) →
          otherValues.take (place + 1) = values.take (place + 1) →
          (other.passes codec otherData).result = (filter.passes codec data).result) ∧
    (∀ other : DataFilter,
      List.Forall₂ (fun pair => FilterEntry.SameUpToSettled codec pair.2 pair.1)
        (filter.entries.zip values) other.entries →
      (other.passes codec data).result = (filter.passes codec data).result) ∧
    (∀ longer : DataFilter, List.Forall₂ FilterEntry.Extends filter.entries longer.entries →
      (filter.passes codec data).result = .ok true →
      (longer.passes codec data).result = .ok true) ∧
    (∀ other : DataFilter, List.Forall₂ FilterEntry.SameValues filter.entries other.entries →
      (∀ entry ∈ filter.entries, ∀ accepted, entry.accepted = some accepted →
        ∀ candidate ∈ accepted, (codec.coerce entry.type candidate).isSome = true) →
      (other.passes codec data).result = (filter.passes codec data).result) := by
  have result : (filter.passes codec data).result =
      (acceptsEach codec filter.entries values).result := by
    rw [result_passes restricted, decoded]
  have passed : (filter.passes codec data).result = .ok true ↔
      ∀ pair ∈ filter.entries.zip values, pair.1.Accepts codec pair.2 := by
    simp only [result, acceptsEach_eq_ok_true_iff, FilterEntry.verdict_eq_ok_true_iff]
  refine ⟨passed, ?_, ?_, ?_, ?_⟩
  · intro refused
    obtain ⟨place, entry, first⟩ := exists_firstRefused (mt passed.2 refused)
    have decides := result.trans first.result_eq
    refine ⟨place, entry, first, decides, ?_⟩
    intro other otherData otherValues otherDecoded sameEntries sameValues
    have otherFirst := first.of_take sameEntries sameValues
    rw [result_passes otherFirst.isEmpty_eq_false, otherDecoded, decides]
    exact otherFirst.result_eq
  · intro other alike
    have samePlaces := (forall₂_zip counted).1 (alike.imp fun _ _ same => same.samePlace)
    rw [result_passes_of_samePlaces restricted decoded samePlaces, result]
    exact result_acceptsEach_congr counted (alike.imp fun _ _ => verdict_of_sameUpToSettled)
  · intro other longer passes
    have samePlaces := longer.imp fun _ _ more => more.samePlace
    rw [result_passes_of_samePlaces restricted decoded samePlaces]
    exact acceptsEach_of_extends longer (result ▸ passes)
  · intro other same able
    have samePlaces := same.imp fun _ _ each => each.samePlace
    have sameVerdicts : List.Forall₂
        (fun entry other => ∀ value, other.verdict codec value = entry.verdict codec value)
        filter.entries other.entries :=
      ((List.forall₂_and_left _ _).2 ⟨able, same⟩).imp fun _ _ both =>
        verdict_of_sameValues both.2 both.1
    have beside := (forall₂_zip counted).2 sameVerdicts
    rw [result_passes_of_samePlaces restricted decoded samePlaces, result]
    exact result_acceptsEach_congr counted (beside.imp fun pair _ each => each pair.2)

/-- An accepted value that stands for nothing is no matter behind one that stands for the decoded
value, but in front of it is an error, whatever is added behind it. -/
theorem passes_decided_by_first_of_bools :
    let first : FilterEntry := ⟨"bool", some [.bool true, .text "yes"]⟩
    let second : FilterEntry := ⟨"bool", some [.bool true, .text "no"]⟩
    let filter : DataFilter := ⟨[first, second]⟩
    let other : DataFilter := ⟨[first, ⟨"bool", some [.bool true, .text "no", .bool false]⟩]⟩
    let data := Bytes.ofNat 32 1 ++ Bytes.ofNat 32 0
    filter.isEmpty = false ∧
    (Codec.standard true 4096).decode filter.types data = .ok [.bool true, .bool false] ∧
    (filter.passes (.standard true 4096) data).result = .error (.invalidValue "bool" (.text "no")) ∧
    (other.passes (.standard true 4096) data).result =
      (filter.passes (.standard true 4096) data).result := by
  intro first second filter other data
  have bool : AbiType.parse "bool" = .ok .bool := by cbv
  have parses : parseTypes filter.types = .ok [.bool, .bool] := by
    simp [filter, first, second, types, parseTypes, bool]
  have read : Value.decodeSequence 4096 [.bool, .bool] (Bytes.ofNat 32 1 ++ Bytes.ofNat 32 0) =
      .ok [.bool true, .bool false] := by cbv
  have decoded : (Codec.standard true 4096).decode filter.types data =
      .ok [.bool true, .bool false] := by
    simp [Codec.standard, decodeData, parses, data, read, Except.mapError]
  have coerced (argument : Argument) :
      Argument.coerceText true "bool" argument = argument.bool?.map .bool := by
    simp [Argument.coerceText, AbiType.parse?_eq_some_iff.2 bool, Argument.coerce]
  have normal (value : Bool) : Value.normalizeText "bool" (.bool value) = .bool value :=
    Value.normalizeText_of_coerceText ((coerced (.bool value)).trans rfl)
  obtain ⟨passed, decides, settled, -, -⟩ :=
    passes_decided_by_first (show filter.isEmpty = false from rfl) decoded rfl
  have firstAccepts : first.Accepts (.standard true 4096) (.bool true) := by
    intro accepted restricted
    obtain rfl := Option.some.inj restricted
    exact ⟨[], .bool true, [.text "yes"], rfl, by simp, by simp [first, coerced, normal]; rfl⟩
  have refused : (filter.passes (.standard true 4096) data).result ≠ .ok true := by
    intro each
    have secondAccepts := passed.1 each (second, .bool false) (by simp [filter])
    obtain ⟨before, candidate, after, split, -, taken⟩ := secondAccepts _ rfl
    have member : candidate ∈ [Argument.bool true, .text "no"] := by rw [split]; simp
    have isFalse : candidate.bool? = some false := by
      simpa [second, coerced, normal] using taken
    simp only [List.mem_cons, List.not_mem_nil, or_false] at member
    rcases member with rfl | rfl <;> cases isFalse
  obtain ⟨place, entry, found, decided, -⟩ := decides refused
  have isSecond : entry = second := by
    cases found with
    | here refuses => exact absurd firstAccepts refuses
    | later _ others =>
      cases others with
      | here => rfl
      | later _ others => cases others
  have longer := settled other <| .cons (.same first) <| .cons
    (@FilterEntry.SameUpToSettled.settled (.standard true 4096) (.bool false) "bool" [.bool true]
      (.text "no") (.inl ((coerced (.text "no")).trans rfl)) [] [.bool false]) .nil
  refine ⟨rfl, decoded, ?_, longer⟩
  rw [decided, isSecond]
  simp [FilterEntry.refusal, second, coerced, Argument.bool?]

end DataFilter

end ContractAbi
