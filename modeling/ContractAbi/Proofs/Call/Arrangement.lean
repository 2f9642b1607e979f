import ContractAbi.Call.Arrangement
import ContractAbi.Proofs.Keyed
import ContractAbi.Proofs.Outcome

/-!
# Arranged arguments

Each named argument stands at the first place of its name, whatever order they are placed in. When
they name exactly the inputs behind the positional ones, the arrangement is the positional arguments
followed by the named ones in declared order (`Element.arrange_eq_append`).
-/

namespace ContractAbi

namespace Arrangement

variable {inputs : List Param} {name : String} {place : Nat}

/-- A name stands for the first input of that name. -/
theorem place?_eq_some_iff :
    place? inputs name = some place ↔
      ∃ inside : place < inputs.length, inputs[place].name = name ∧
        ∀ earlier, (before : earlier < place) → inputs[earlier].name ≠ name := by
  simp [place?, List.findIdx?_eq_some_iff_getElem]

/-- What stands in the places after entries were put there: at the first place of each name the
value under that name. -/
def placed (inputs : List Param) (entries : List (String × Argument)) : List (Option Argument) :=
  inputs.mapIdx fun place input =>
    if place? inputs input.name = some place then entries.lookup input.name else none

theorem placed_nil : placed inputs [] = List.replicate inputs.length none := by
  apply List.ext_getElem?
  intro place
  by_cases inside : place < inputs.length <;> simp [placed, inside]

/-- A new entry is put into the place of its name. -/
theorem set_placed {done : List (String × Argument)} {value : Argument}
    (absent : name ∉ done.map Prod.fst) (found : place? inputs name = some place) :
    (placed inputs done).set place (some value) = placed inputs (done ++ [(name, value)]) := by
  obtain ⟨inside, sameName, -⟩ := place?_eq_some_iff.1 found
  apply List.ext_getElem?
  intro other
  simp only [placed, List.getElem?_set, List.length_mapIdx, List.getElem?_mapIdx,
    List.lookup_append]
  by_cases here : place = other
  · subst here
    have notYet : done.lookup name = none := by
      rw [List.lookup_eq_none_iff]
      intro entry member
      have different : name ≠ entry.1 := fun same => absent (same ▸ List.mem_map_of_mem member)
      simpa using different
    simp [inside, sameName, found, notYet]
  · cases known : inputs[other]? with
    | none => simp [here]
    | some input =>
      by_cases same : input.name = name
      · simp [here, same, found]
      · have different : (input.name == name) = false := by simpa using same
        simp [here, List.lookup_cons, different]

/-- Entries with places behind the positional ones are all put there. -/
theorem placeNamed_eq_ok {positional : Nat} (done : List (String × Argument))
    {entries : List (String × Argument)}
    (fits : ∀ entry ∈ entries, ∃ place, place? inputs entry.1 = some place ∧ positional ≤ place)
    (distinct : ((done ++ entries).map Prod.fst).Nodup) :
    placeNamed inputs positional entries (placed inputs done) =
      .ok (placed inputs (done ++ entries)) := by
  induction entries generalizing done with
  | nil => simp [placeNamed]
  | cons entry entries inductionHypothesis =>
    obtain ⟨name, value⟩ := entry
    obtain ⟨⟨place, found, behind⟩, othersFit⟩ := List.forall_mem_cons.1 fits
    have moved := (List.perm_middle.map Prod.fst).nodup_iff.1 distinct
    simp only [List.map_cons, List.nodup_cons, List.map_append, List.mem_append, not_or] at moved
    have split : done ++ (name, value) :: entries = done ++ [(name, value)] ++ entries := by simp
    simp only [placeNamed, found, Nat.not_lt.2 behind, ↓reduceIte, set_placed moved.1.1 found]
    rw [split] at distinct ⊢
    exact inductionHypothesis _ othersFit distinct

/-- Values fill the empty places in front of filled ones. -/
theorem fillGaps_replicate (arguments values : List Argument) :
    fillGaps (List.replicate arguments.length none ++ values.map some) arguments =
      (arguments ++ values).map some := by
  induction arguments with
  | nil =>
    induction values with
    | nil => rfl
    | cons value values inductionHypothesis => simpa [fillGaps] using inductionHypothesis
  | cons argument arguments inductionHypothesis =>
    simpa [fillGaps, List.replicate_succ] using inductionHypothesis

/-- Filled places give their values. -/
theorem collect_map_some {values : List Argument} (counted : inputs.length = values.length) :
    collect inputs (values.map some) = .ok values := by
  induction inputs generalizing values with
  | nil =>
    obtain rfl := List.length_eq_zero_iff.1 counted.symm
    rfl
  | cons input inputs inductionHypothesis =>
    cases values with
    | nil => simp at counted
    | cons value values =>
      simp [collect, inductionHypothesis (Nat.succ.inj counted)]

/-! ## One argument for each input -/

theorem length_of_placeNamed {positional : Nat} {entries : List (String × Argument)}
    {slots filled : List (Option Argument)}
    (placed : placeNamed inputs positional entries slots = .ok filled) :
    filled.length = slots.length := by
  induction entries generalizing slots with
  | nil => exact congrArg List.length (Except.ok.inj placed).symm
  | cons entry entries inductionHypothesis =>
    simp only [placeNamed] at placed
    split at placed
    · cases placed
    · split at placed
      · cases placed
      · simpa using inductionHypothesis placed

@[simp] theorem length_fillGaps (slots : List (Option Argument)) (values : List Argument) :
    (fillGaps slots values).length = slots.length := by
  induction slots generalizing values with
  | nil => rfl
  | cons slot slots inductionHypothesis =>
    cases slot <;> cases values <;> simp [fillGaps, inductionHypothesis]

theorem length_of_collect {slots : List (Option Argument)} {values : List Argument}
    (counted : inputs.length = slots.length) (collected : collect inputs slots = .ok values) :
    values.length = inputs.length := by
  induction inputs generalizing slots values with
  | nil =>
    obtain rfl := Except.ok.inj collected
    rfl
  | cons input inputs inductionHypothesis =>
    cases slots with
    | nil => simp at counted
    | cons slot slots =>
      cases slot with
      | none => simp [collect] at collected
      | some value =>
        simp only [collect, Outcome.map_eq_ok] at collected
        obtain ⟨others, rest, rfl⟩ := collected
        rw [List.length_cons, List.length_cons,
          inductionHypothesis (Nat.succ.inj counted) rest]

/-! ## Named arguments for the inputs behind the positional ones -/

theorem mem_take_getElem {positional : Nat} (inside : place < inputs.length)
    (front : place < positional) : inputs[place] ∈ inputs.take positional :=
  List.mem_take_iff_getElem.2 ⟨place, by omega, rfl⟩

theorem mem_drop_getElem {positional : Nat} (inside : place < inputs.length)
    (behind : positional ≤ place) : inputs[place] ∈ inputs.drop positional := by
  rw [List.mem_drop_iff_getElem]
  exact ⟨place - positional, by omega, by simp [Nat.add_sub_cancel' behind]⟩

/-- An input behind the positional ones is the first of its name, when those behind have names of
their own. -/
theorem place?_name_eq {positional : Nat}
    (distinct : ((inputs.drop positional).map Param.name).Nodup)
    (apart : ∀ input ∈ inputs.drop positional,
      input.name ∉ (inputs.take positional).map Param.name)
    (inside : place < inputs.length) (behind : positional ≤ place) :
    place? inputs inputs[place].name = some place := by
  rw [place?_eq_some_iff]
  refine ⟨inside, rfl, ?_⟩
  intro earlier before sameName
  rcases Nat.lt_or_ge earlier positional with front | alsoBehind
  · apply apart _ (mem_drop_getElem inside behind)
    rw [← sameName]
    exact List.mem_map_of_mem (mem_take_getElem _ front)
  · have apartNames := List.pairwise_iff_getElem.1 distinct (earlier - positional)
      (place - positional) (by simp; omega) (by simp; omega) (by omega)
    simp only [List.getElem_map, List.getElem_drop, Nat.add_sub_cancel' behind,
      Nat.add_sub_cancel' alsoBehind] at apartNames
    exact apartNames sameName

/-- Named arguments for the inputs behind the positional ones have the names of these. -/
theorem keys_perm {positional : Nat} {values : List Argument}
    {entries : List (String × Argument)}
    (counted : positional + values.length = inputs.length)
    (same : entries.Perm (((inputs.drop positional).map Param.name).zip values)) :
    (entries.map Prod.fst).Perm ((inputs.drop positional).map Param.name) := by
  have counts : ((inputs.drop positional).map Param.name).length = values.length := by
    rw [List.length_map, List.length_drop]
    omega
  simpa only [List.map_fst_zip (Nat.le_of_eq counts)] using same.map Prod.fst

/-- No named argument is there for an input that takes a positional one. -/
theorem lookup_eq_none_of_front {positional : Nat} {entries : List (String × Argument)}
    (apart : ∀ input ∈ inputs.drop positional,
      input.name ∉ (inputs.take positional).map Param.name)
    (keys : (entries.map Prod.fst).Perm ((inputs.drop positional).map Param.name))
    (inside : place < inputs.length) (front : place < positional) :
    entries.lookup inputs[place].name = none := by
  rw [List.lookup_eq_none_iff]
  intro entry member
  rw [bne_iff_ne]
  intro sameName
  have named := keys.mem_iff.1 (List.mem_map_of_mem member)
  obtain ⟨input, isBehind, inputName⟩ := List.mem_map.1 named
  apply apart input isBehind
  rw [inputName, ← sameName]
  exact List.mem_map_of_mem (mem_take_getElem inside front)

/-- The named argument for an input behind the positional ones is the value at its place. -/
theorem lookup_eq_some_of_behind {positional : Nat} {values : List Argument}
    {entries : List (String × Argument)}
    (distinct : ((inputs.drop positional).map Param.name).Nodup)
    (keys : (entries.map Prod.fst).Perm ((inputs.drop positional).map Param.name))
    (same : entries.Perm (((inputs.drop positional).map Param.name).zip values))
    (inside : place < inputs.length) (behind : positional ≤ place)
    (valued : place - positional < values.length) :
    entries.lookup inputs[place].name = some values[place - positional] := by
  apply Keyed.lookup_of_mem (keys.nodup_iff.2 distinct)
  apply same.mem_iff.2
  rw [List.mem_iff_getElem]
  refine ⟨place - positional, by simp; omega, ?_⟩
  simp only [List.getElem_zip, List.getElem_map, List.getElem_drop, Nat.add_sub_cancel' behind]

/-- When the named arguments name exactly the inputs behind the positional ones, each stands in the
place of its input. -/
theorem placed_eq_append {positional : Nat} {values : List Argument}
    {entries : List (String × Argument)}
    (counted : positional + values.length = inputs.length)
    (distinct : ((inputs.drop positional).map Param.name).Nodup)
    (apart : ∀ input ∈ inputs.drop positional,
      input.name ∉ (inputs.take positional).map Param.name)
    (same : entries.Perm (((inputs.drop positional).map Param.name).zip values)) :
    placed inputs entries = List.replicate positional none ++ values.map some := by
  have keys := keys_perm counted same
  apply List.ext_getElem?
  intro place
  rw [placed, List.getElem?_mapIdx]
  rcases Nat.lt_or_ge place inputs.length with inside | outside
  · rw [List.getElem?_eq_getElem inside, Option.map_some]
    rcases Nat.lt_or_ge place positional with front | behind
    · have unnamed := lookup_eq_none_of_front apart keys inside front
      simp [List.getElem?_append, front, unnamed]
    · have valued : place - positional < values.length := by omega
      have found := lookup_eq_some_of_behind distinct keys same inside behind valued
      have first := place?_name_eq distinct apart inside behind
      simp [List.getElem?_append, Nat.not_lt.2 behind, first, found, valued]
  · have noPlace : (List.replicate positional none ++ values.map some).length ≤ place := by
      rw [List.length_append, List.length_replicate, List.length_map]
      omega
    rw [List.getElem?_eq_none outside, List.getElem?_eq_none noPlace, Option.map_none]

end Arrangement

/-- An arrangement has one argument for each input. -/
theorem Element.length_of_arrange {element : Element} {arguments arranged : List Argument}
    {named : NamedArguments} (arranges : element.arrange arguments named = .ok arranged) :
    arranged.length = element.inputCount := by
  simp only [arrange] at arranges
  split at arranges
  · cases arranges
  · split at arranges
    · cases arranges
    · next slots placed =>
      have filled := Arrangement.length_of_placeNamed placed
      rw [List.length_replicate] at filled
      exact Arrangement.length_of_collect (by simp [filled, inputCount]) arranges

/-- Positional arguments, and named ones for exactly the other inputs, are arranged in declared
order. -/
theorem Element.arrange_eq_append {element : Element} {arguments values : List Argument}
    {named : NamedArguments} (counted : arguments.length + values.length = element.inputCount)
    (distinct : ((element.inputs.drop arguments.length).map Param.name).Nodup)
    (apart : ∀ input ∈ element.inputs.drop arguments.length,
      input.name ∉ (element.inputs.take arguments.length).map Param.name)
    (same : named.entries.Perm
      (((element.inputs.drop arguments.length).map Param.name).zip values)) :
    element.arrange arguments named = .ok (arguments ++ values) := by
  simp only [Element.inputCount] at counted
  have supplied : arguments.length + named.size = element.inputCount := by
    rw [NamedArguments.size, same.length_eq, List.length_zip, List.length_map, List.length_drop,
      Element.inputCount]
    omega
  have stands := Arrangement.placed_eq_append counted distinct apart same
  have fits : ∀ entry ∈ named.entries, ∃ place,
      Arrangement.place? element.inputs entry.1 = some place ∧ arguments.length ≤ place := by
    intro entry member
    have isNamed := (Arrangement.keys_perm counted same).mem_iff.1 (List.mem_map_of_mem member)
    obtain ⟨input, isBehind, inputName⟩ := List.mem_map.1 isNamed
    obtain ⟨further, inside, rfl⟩ := List.mem_drop_iff_getElem.1 isBehind
    rw [← inputName]
    exact ⟨_, Arrangement.place?_name_eq distinct apart _ (Nat.le_add_right _ _),
      Nat.le_add_right _ _⟩
  have keys := (Arrangement.keys_perm counted same).nodup_iff.2 distinct
  have placing := Arrangement.placeNamed_eq_ok [] fits keys
  rw [Arrangement.placed_nil, List.nil_append, stands] at placing
  have filled : element.inputs.length = (arguments ++ values).length := by
    rw [List.length_append, counted]
  simp only [arrange, supplied, ne_eq, not_true_eq_false, ↓reduceIte]
  simp only [inputCount, placing, Arrangement.fillGaps_replicate,
    Arrangement.collect_map_some filled]

/-- Positional arguments alone are in declared order. -/
theorem Element.arrange_of_positional {element : Element} {arguments : List Argument}
    {named : NamedArguments} (counted : arguments.length = element.inputCount)
    (noneNamed : named.entries = []) : element.arrange arguments named = .ok arguments := by
  have noneLeft : element.inputs.drop arguments.length = [] :=
    List.drop_of_length_le (Nat.le_of_eq counted.symm)
  have arranges : element.arrange arguments named = .ok (arguments ++ []) :=
    arrange_eq_append counted (by simp [noneLeft]) (by simp [noneLeft]) (by simp [noneNamed])
  rwa [List.append_nil] at arranges

end ContractAbi
