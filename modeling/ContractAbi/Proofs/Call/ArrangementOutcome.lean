import ContractAbi.Proofs.Call.Arrangement
import Mathlib

/-!
# The outcome of an arrangement

Arguments are arranged exactly when they are as many as the inputs and each name stands for an input
behind the positional ones. Distinct names then cover these inputs without a gap
(`Arrangement.keys_perm_of_free`), so no place is left empty. Otherwise the first name that offends
decides about the error (`Arrangement.placeNamed_eq_error_iff`). `Element.arrange_outcome` puts the
two together.
-/

namespace ContractAbi

namespace Arrangement

variable {inputs : List Param} {positional : Nat} {name : String}
  {entries : List (String × Argument)}

/-- The first input of the name stands at the place. -/
def FirstAt (inputs : List Param) (name : String) (place : Nat) : Prop :=
  ∃ before input after, inputs = before ++ input :: after ∧ before.length = place ∧
    input.name = name ∧ ∀ other ∈ before, other.name ≠ name

/-- The first input of the name stands behind the positional ones. -/
def Free (inputs : List Param) (positional : Nat) (name : String) : Prop :=
  ∃ place, FirstAt inputs name place ∧ positional ≤ place

/-- What is wrong with a name that is not free. -/
inductive Offence (inputs : List Param) (positional : Nat) (name : String) :
    EncodingError → Prop where
  | unknown (undeclared : ∀ input ∈ inputs, input.name ≠ name) :
    Offence inputs positional name (.unknownArgument name)
  | duplicate {place : Nat} (first : FirstAt inputs name place) (taken : place < positional) :
    Offence inputs positional name (.duplicateArgument name)

/-- The error is the offence of an entry, and the names of all entries before it are free. -/
def FirstOffence (inputs : List Param) (positional : Nat) (entries : List (String × Argument))
    (error : EncodingError) : Prop :=
  ∃ before entry after, entries = before ++ entry :: after ∧
    (∀ other ∈ before, Free inputs positional other.1) ∧ Offence inputs positional entry.1 error

theorem place?_eq_none_iff :
    place? inputs name = none ↔ ∀ input ∈ inputs, input.name ≠ name := by
  simp [place?]

theorem place?_eq_some_iff_firstAt {place : Nat} :
    place? inputs name = some place ↔ FirstAt inputs name place := by
  rw [place?_eq_some_iff]
  constructor
  · rintro ⟨inside, named, apart⟩
    refine ⟨inputs.take place, inputs[place], inputs.drop (place + 1), ?_, ?_, named, ?_⟩
    · rw [List.getElem_cons_drop, List.take_append_drop]
    · exact List.length_take_of_le (Nat.le_of_lt inside)
    · intro other member
      obtain ⟨earlier, inFront, rfl⟩ := List.mem_take_iff_getElem.1 member
      exact apart earlier (Nat.lt_of_lt_of_le inFront (Nat.min_le_left _ _))
  · rintro ⟨before, input, after, rfl, rfl, named, apart⟩
    refine ⟨by simp, by simpa using named, ?_⟩
    intro earlier inFront
    rw [List.getElem_append_left inFront]
    exact apart _ (List.getElem_mem inFront)

/-- A name is free, or else there is one thing wrong with it. -/
theorem free_or_offence (inputs : List Param) (positional : Nat) (name : String) :
    Free inputs positional name ∨ ∃ error, Offence inputs positional name error := by
  cases found : place? inputs name with
  | none => exact .inr ⟨_, .unknown (place?_eq_none_iff.1 found)⟩
  | some place =>
    have first : FirstAt inputs name place := place?_eq_some_iff_firstAt.1 found
    rcases Nat.lt_or_ge place positional with taken | behind
    · exact .inr ⟨_, .duplicate first taken⟩
    · exact .inl ⟨place, first, behind⟩

theorem FirstAt.unique {place other : Nat} (first : FirstAt inputs name place)
    (alsoFirst : FirstAt inputs name other) : place = other :=
  Option.some.inj <|
    (place?_eq_some_iff_firstAt.2 first).symm.trans (place?_eq_some_iff_firstAt.2 alsoFirst)

theorem FirstAt.declared {place : Nat} (first : FirstAt inputs name place) :
    ∃ input ∈ inputs, input.name = name := by
  obtain ⟨before, input, after, rfl, -, sameName, -⟩ := first
  exact ⟨input, by simp, sameName⟩

theorem Free.not_offence (free : Free inputs positional name) {error : EncodingError} :
    ¬Offence inputs positional name error := by
  obtain ⟨place, first, behind⟩ := free
  rintro (undeclared | ⟨alsoFirst, taken⟩)
  · obtain ⟨input, member, sameName⟩ := first.declared
    exact undeclared input member sameName
  · obtain rfl := first.unique alsoFirst
    omega

theorem Offence.unique {error other : EncodingError}
    (offence : Offence inputs positional name error)
    (another : Offence inputs positional name other) : error = other := by
  cases offence with
  | unknown undeclared =>
    cases another with
    | unknown => rfl
    | duplicate first taken =>
      obtain ⟨input, member, sameName⟩ := first.declared
      exact absurd sameName (undeclared input member)
  | duplicate first taken =>
    cases another with
    | unknown undeclared =>
      obtain ⟨input, member, sameName⟩ := first.declared
      exact absurd sameName (undeclared input member)
    | duplicate => rfl

/-- The first offence is that of the entry in front, or comes behind an entry with a free name. -/
theorem firstOffence_cons_iff {entry : String × Argument} {error : EncodingError} :
    FirstOffence inputs positional (entry :: entries) error ↔
      Offence inputs positional entry.1 error ∨
        Free inputs positional entry.1 ∧ FirstOffence inputs positional entries error := by
  constructor
  · rintro ⟨before, faulty, after, split, free, offence⟩
    cases before with
    | nil =>
      obtain ⟨rfl, rfl⟩ := List.cons.inj split
      exact .inl offence
    | cons first before =>
      obtain ⟨rfl, rfl⟩ := List.cons.inj split
      obtain ⟨firstFree, othersFree⟩ := List.forall_mem_cons.1 free
      exact .inr ⟨firstFree, before, faulty, after, rfl, othersFree, offence⟩
  · rintro (offence | ⟨free, before, faulty, after, rfl, othersFree, offence⟩)
    · exact ⟨[], entry, entries, rfl, by simp, offence⟩
    · exact ⟨entry :: before, faulty, after, rfl, List.forall_mem_cons.2 ⟨free, othersFree⟩,
        offence⟩

/-- Placing fails with the first offence. -/
theorem placeNamed_eq_error_iff {slots : List (Option Argument)} {error : EncodingError} :
    placeNamed inputs positional entries slots = .error error ↔
      FirstOffence inputs positional entries error := by
  induction entries generalizing slots with
  | nil => simp [placeNamed, FirstOffence]
  | cons entry entries inductionHypothesis =>
    obtain ⟨name, value⟩ := entry
    -- A name that is not free ends the search with its only offence.
    have ended {fault : EncodingError} (offence : Offence inputs positional name fault) :
        Except.error fault = (.error error : Except EncodingError (List (Option Argument))) ↔
          FirstOffence inputs positional ((name, value) :: entries) error := by
      rw [firstOffence_cons_iff, Except.error.injEq]
      constructor
      · rintro rfl
        exact .inl offence
      · rintro (another | ⟨free, -⟩)
        · exact offence.unique another
        · exact absurd offence free.not_offence
    simp only [placeNamed]
    split
    · next unplaced => exact ended (.unknown (place?_eq_none_iff.1 unplaced))
    · next place found =>
      have first : FirstAt inputs name place := place?_eq_some_iff_firstAt.1 found
      split
      · next taken => exact ended (.duplicate first taken)
      · next behind =>
        have free : Free inputs positional name := ⟨place, first, Nat.not_lt.1 behind⟩
        rw [inductionHypothesis, firstOffence_cons_iff]
        simp only [free.not_offence, free, false_or, true_and]

/-- All names are free, or else there is a first offence. -/
theorem forall_free_or_firstOffence (inputs : List Param) (positional : Nat)
    (entries : List (String × Argument)) :
    (∀ entry ∈ entries, Free inputs positional entry.1) ∨
      ∃ error, FirstOffence inputs positional entries error := by
  induction entries with
  | nil => exact .inl (by simp)
  | cons entry entries inductionHypothesis =>
    rcases free_or_offence inputs positional entry.1 with free | ⟨error, offence⟩
    · rcases inductionHypothesis with othersFree | ⟨error, offence⟩
      · exact .inl (List.forall_mem_cons.2 ⟨free, othersFree⟩)
      · exact .inr ⟨error, firstOffence_cons_iff.2 (.inr ⟨free, offence⟩)⟩
    · exact .inr ⟨error, firstOffence_cons_iff.2 (.inl offence)⟩

theorem FirstOffence.not_free {error : EncodingError}
    (offence : FirstOffence inputs positional entries error) :
    ¬∀ entry ∈ entries, Free inputs positional entry.1 := by
  obtain ⟨before, entry, after, rfl, -, offence⟩ := offence
  intro free
  exact (free entry (by simp)).not_offence offence

/-! ## Free names -/

/-- A free name is that of an input behind the positional ones. -/
theorem Free.mem_drop (free : Free inputs positional name) :
    name ∈ (inputs.drop positional).map Param.name := by
  obtain ⟨_, ⟨before, input, after, rfl, rfl, rfl, -⟩, behind⟩ := free
  rw [List.drop_append_of_le_length behind]
  exact List.mem_map_of_mem (List.mem_append_right _ List.mem_cons_self)

/-- A free name is that of no positional input. -/
theorem Free.not_mem_take (free : Free inputs positional name) :
    name ∉ (inputs.take positional).map Param.name := by
  obtain ⟨_, ⟨before, input, after, rfl, rfl, -, apart⟩, behind⟩ := free
  rw [List.take_append_of_le_length behind]
  intro member
  obtain ⟨other, isFront, sameName⟩ := List.mem_map.1 member
  exact apart other (List.mem_of_mem_take isFront) sameName

/-- Distinct free names that are as many as the inputs behind the positional ones are the names of
these, each of them once. -/
theorem keys_perm_of_free (free : ∀ entry ∈ entries, Free inputs positional entry.1)
    (distinct : (entries.map Prod.fst).Nodup)
    (counted : positional + entries.length = inputs.length) :
    (entries.map Prod.fst).Perm ((inputs.drop positional).map Param.name) := by
  have declared : entries.map Prod.fst ⊆ (inputs.drop positional).map Param.name := by
    intro name member
    obtain ⟨entry, isEntry, rfl⟩ := List.mem_map.1 member
    exact (free entry isEntry).mem_drop
  apply (List.subperm_of_subset distinct declared).perm_of_length_le
  rw [List.length_map, List.length_map, List.length_drop]
  omega

/-- Each of the names has a value, and the entries are these values under their names. -/
theorem exists_valued {names : List String} (keys : (entries.map Prod.fst).Perm names)
    (distinct : names.Nodup) :
    ∃ values, List.Forall₂ (fun name value => (name, value) ∈ entries) names values ∧
      entries.Perm (names.zip values) := by
  let valueOf (name : String) : Argument := (entries.lookup name).getD default
  have valued : ∀ name ∈ names, (name, valueOf name) ∈ entries := by
    intro name member
    obtain ⟨⟨key, value⟩, isEntry, rfl⟩ := List.mem_map.1 (keys.mem_iff.2 member)
    have found := Keyed.lookup_of_mem (keys.nodup_iff.2 distinct) isEntry
    simpa only [valueOf, found, Option.getD_some] using isEntry
  refine ⟨names.map valueOf, ?_, ?_⟩
  · rw [List.forall₂_map_right_iff, List.forall₂_same]
    exact valued
  · rw [← List.map_prod_left_eq_zip]
    have pairs : (names.map fun name => (name, valueOf name)) ⊆ entries := by
      intro pair member
      obtain ⟨name, isName, rfl⟩ := List.mem_map.1 member
      exact valued name isName
    have pairsDistinct : (names.map fun name => (name, valueOf name)).Nodup :=
      distinct.map fun _ _ equal => (Prod.mk.inj equal).1
    refine ((List.subperm_of_subset pairsDistinct pairs).perm_of_length_le ?_).symm
    exact Nat.le_of_eq (by rw [List.length_map, ← keys.length_eq, List.length_map])

end Arrangement

namespace Element

/-- What an arrangement gives: the positional arguments, and behind them for each other input the
value under its name. These inputs have names of their own, so nothing is lost or given twice. -/
structure Arranges (element : Element) (arguments : List Argument) (named : NamedArguments)
    (arranged : List Argument) : Prop where
  counted : arguments.length + named.size = element.inputCount
  free : ∀ entry ∈ named.entries, Arrangement.Free element.inputs arguments.length entry.1
  valued : ∃ values, arranged = arguments ++ values ∧
    List.Forall₂ (fun input value => (input.name, value) ∈ named.entries)
      (element.inputs.drop arguments.length) values
  distinct : ((element.inputs.drop arguments.length).map Param.name).Nodup
  apart : ∀ input ∈ element.inputs.drop arguments.length,
    input.name ∉ (element.inputs.take arguments.length).map Param.name
  once : arranged.Perm (arguments ++ named.entries.map Prod.snd)

variable {element : Element} {arguments : List Argument} {named : NamedArguments}

/-- Arguments with free names, one for each input, have an arrangement. -/
theorem exists_arranges
    (counted : arguments.length + named.size = element.inputCount)
    (free : ∀ entry ∈ named.entries, Arrangement.Free element.inputs arguments.length entry.1) :
    ∃ arranged, element.arrange arguments named = .ok arranged ∧
      element.Arranges arguments named arranged := by
  have keysDistinct := Keyed.Ascending.nodup_keys named.ascending
  have keys := Arrangement.keys_perm_of_free free keysDistinct counted
  have distinct := keys.nodup_iff.1 keysDistinct
  have apart : ∀ input ∈ element.inputs.drop arguments.length,
      input.name ∉ (element.inputs.take arguments.length).map Param.name := by
    intro input member
    have isKey := keys.mem_iff.2 (List.mem_map_of_mem (f := Param.name) member)
    obtain ⟨entry, isEntry, sameName⟩ := List.mem_map.1 isKey
    exact sameName ▸ (free entry isEntry).not_mem_take
  obtain ⟨values, valued, same⟩ := Arrangement.exists_valued keys distinct
  have valuesCounted : arguments.length + values.length = element.inputCount := by
    rw [← valued.length_eq, ← keys.length_eq, List.length_map]
    exact counted
  refine ⟨arguments ++ values, arrange_eq_append valuesCounted distinct apart same, counted, free,
    ⟨values, rfl, List.forall₂_map_left_iff.1 valued⟩, distinct, apart, ?_⟩
  have supplied := same.map Prod.snd
  rw [List.map_snd_zip (Nat.le_of_eq valued.length_eq.symm)] at supplied
  exact supplied.symm.append_left arguments

/-- When there are as many arguments as inputs, the arrangement fails with the first offence. -/
theorem arrange_eq_error_iff (counted : arguments.length + named.size = element.inputCount)
    {error : EncodingError} :
    element.arrange arguments named = .error error ↔
      Arrangement.FirstOffence element.inputs arguments.length named.entries error := by
  rcases Arrangement.forall_free_or_firstOffence element.inputs arguments.length named.entries with
    free | ⟨fault, offence⟩
  · obtain ⟨arranged, arranges, -⟩ := exists_arranges counted free
    rw [arranges]
    exact iff_of_false (by simp) fun offence => offence.not_free free
  · have placing : Arrangement.placeNamed element.inputs arguments.length named.entries
        (List.replicate element.inputCount none) = .error fault :=
      Arrangement.placeNamed_eq_error_iff.2 offence
    have blamed : element.arrange arguments named = .error fault := by
      simp only [arrange, counted, ne_eq, not_true_eq_false, ↓reduceIte, placing]
    rw [blamed, ← Arrangement.placeNamed_eq_error_iff, placing, Except.error.injEq,
      Except.error.injEq]

/-- The outcome of every arrangement. There is one exactly when there are as many arguments as
inputs and every name is free, and it is the positional arguments followed by the named ones in
declared order. Otherwise the count is wrong, or the first name in key order that is not free is to
blame; no value is ever missing. -/
theorem arrange_outcome (element : Element) (arguments : List Argument)
    (named : NamedArguments) :
    let supplied := arguments.length + named.size
    let outcome := element.arrange arguments named
    ((∃ arranged, outcome = .ok arranged) ↔
      supplied = element.inputCount ∧
        ∀ entry ∈ named.entries, Arrangement.Free element.inputs arguments.length entry.1) ∧
    (∀ arranged, outcome = .ok arranged → element.Arranges arguments named arranged) ∧
    (supplied ≠ element.inputCount →
      outcome = .error (.argumentCount element.inputCount supplied)) ∧
    (supplied = element.inputCount → ∀ error, outcome = .error error ↔
      Arrangement.FirstOffence element.inputs arguments.length named.entries error) ∧
    ∀ name, outcome ≠ .error (.missingArgument name) := by
  intro supplied outcome
  have miscounted (wrong : supplied ≠ element.inputCount) :
      outcome = .error (.argumentCount element.inputCount supplied) := by
    simp only [outcome, arrange, supplied, ne_eq] at wrong ⊢
    simp only [wrong, not_false_eq_true, ↓reduceIte]
  have arrangesOf {arranged : List Argument} (isArranged : outcome = .ok arranged) :
      element.Arranges arguments named arranged := by
    by_cases counted : supplied = element.inputCount
    · rcases Arrangement.forall_free_or_firstOffence element.inputs arguments.length
        named.entries with free | ⟨fault, offence⟩
      · obtain ⟨other, otherArranges, facts⟩ := exists_arranges counted free
        obtain rfl := Except.ok.inj (isArranged.symm.trans otherArranges)
        exact facts
      · cases isArranged.symm.trans ((arrange_eq_error_iff counted).2 offence)
    · cases isArranged.symm.trans (miscounted counted)
  refine ⟨⟨?_, ?_⟩, fun _ => arrangesOf, miscounted, fun counted _ => arrange_eq_error_iff counted,
    ?_⟩
  · rintro ⟨arranged, isArranged⟩
    exact ⟨(arrangesOf isArranged).counted, (arrangesOf isArranged).free⟩
  · rintro ⟨counted, free⟩
    obtain ⟨arranged, isArranged, -⟩ := exists_arranges counted free
    exact ⟨arranged, isArranged⟩
  · intro name missing
    by_cases counted : supplied = element.inputCount
    · obtain ⟨_, _, _, -, -, offence⟩ := (arrange_eq_error_iff counted).1 missing
      cases offence
    · cases missing.symm.trans (miscounted counted)

/-- Names that are given to several inputs stand for the first one of them, so they can only be
given to positional ones. -/
theorem arrange_outcome_of_repeated_names :
    let element : Element := .function ⟨"f",
      [⟨"a", "bool", [], none⟩, ⟨"a", "bool", [], none⟩, ⟨"b", "string", [], none⟩,
        ⟨"", "bytes", [], none⟩], [], .nonPayable⟩
    let positional : List Argument := [.bool true, .bool false]
    let named := NamedArguments.ofList [("b", .text "x"), ("", .bytes [1])]
    let repeated := NamedArguments.ofList [("b", .text "x"), ("a", .bool true)]
    element.Arranges positional named [.bool true, .bool false, .text "x", .bytes [1]] ∧
      element.arrange positional repeated = .error (.duplicateArgument "a") := by
  intro element positional named repeated
  obtain ⟨-, arranges, -⟩ := arrange_outcome element positional named
  obtain ⟨-, -, -, fails, -⟩ := arrange_outcome element positional repeated
  refine ⟨arranges _ rfl, (fails rfl _).2 ?_⟩
  have first : Arrangement.FirstAt element.inputs "a" 0 :=
    ⟨[], _, _, rfl, rfl, rfl, by simp⟩
  exact ⟨[], ("a", .bool true), [("b", .text "x")], rfl, by simp, .duplicate first (by decide)⟩

end Element

end ContractAbi
