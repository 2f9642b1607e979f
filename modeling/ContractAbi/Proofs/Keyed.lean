import ContractAbi.Keyed

/-!
# Putting entries in key order

Entries under distinct keys are put in order and nothing else: none is lost and none is replaced.
-/

namespace ContractAbi.Keyed

variable {α : Type}

/-- Setting a new key adds one entry. -/
theorem insert_perm {key : String} {value : α} {entries : Keyed α}
    (absent : key ∉ entries.map Prod.fst) :
    (insert key value entries).Perm ((key, value) :: entries) := by
  induction entries with
  | nil => exact .refl _
  | cons entry rest inductionHypothesis =>
    obtain ⟨first, other⟩ := entry
    simp only [List.map_cons, List.mem_cons, not_or] at absent
    simp only [insert, update, absent.1, ↓reduceIte]
    split
    · exact .refl _
    · exact ((inductionHypothesis absent.2).cons _).trans (.swap _ _ _)

/-- Entries under distinct keys are all kept when they are put in order. -/
theorem ofList_perm {entries : List (String × α)} (distinct : (entries.map Prod.fst).Nodup) :
    (ofList entries).Perm entries := by
  have general : ∀ (entries : List (String × α)) (sorted : Keyed α),
      ((sorted ++ entries).map Prod.fst).Nodup →
      (entries.foldl (fun sorted entry => insert entry.1 entry.2 sorted) sorted).Perm
        (sorted ++ entries) := by
    intro entries
    induction entries with
    | nil => intro sorted _; simp
    | cons entry entries inductionHypothesis =>
      intro sorted distinct
      have moved : (sorted ++ entry :: entries).Perm (entry :: sorted ++ entries) :=
        List.perm_middle
      have absent : entry.1 ∉ sorted.map Prod.fst := by
        have front := (moved.map Prod.fst).nodup_iff.1 distinct
        simp only [List.cons_append, List.map_cons, List.nodup_cons, List.map_append,
          List.mem_append, not_or] at front
        exact front.1.1
      have inserted : (insert entry.1 entry.2 sorted ++ entries).Perm
          (sorted ++ entry :: entries) :=
        ((insert_perm absent).append_right entries).trans moved.symm
      have stillDistinct := (inserted.map Prod.fst).nodup_iff.2 distinct
      exact (inductionHypothesis _ stillDistinct).trans inserted
  exact general entries [] distinct

/-- Under distinct keys every entry is found by its key. -/
theorem lookup_of_mem {entries : Keyed α} (distinct : (entries.map Prod.fst).Nodup) {key : String}
    {value : α} (member : (key, value) ∈ entries) : entries.lookup key = some value := by
  obtain ⟨before, after, rfl⟩ := List.append_of_mem member
  refine List.lookup_eq_some_iff.2 ⟨before, after, rfl, ?_⟩
  intro entry isBefore
  have apart := (List.perm_middle.map Prod.fst).nodup_iff.1 distinct
  simp only [List.map_cons, List.nodup_cons, List.map_append, List.mem_append, not_or] at apart
  have different : key ≠ entry.1 := fun same => apart.1.1 (same ▸ List.mem_map_of_mem isBefore)
  simpa using different

theorem lookup_eq_none_iff_not_mem {entries : List (String × α)} {key : String} :
    entries.lookup key = none ↔ key ∉ entries.map Prod.fst := by
  simp only [List.lookup_eq_none_iff, bne_iff_ne, List.mem_map, not_exists, not_and]
  exact forall₂_congr fun entry _ => ne_comm

theorem mem_keys_of_lookup {entries : List (String × α)} {key : String} {value : α}
    (found : entries.lookup key = some value) : key ∈ entries.map Prod.fst := by
  apply Decidable.byContradiction
  intro absent
  rw [lookup_eq_none_iff_not_mem.2 absent] at found
  cases found

/-- Without the entries under a key, that key has no value and every other one has the same. -/
theorem lookup_filter_ne (entries : List (String × α)) (key other : String) :
    (entries.filter fun entry => entry.1 ≠ key).lookup other =
      if other = key then none else entries.lookup other := by
  induction entries with
  | nil => simp
  | cons entry entries inductionHypothesis =>
    obtain ⟨first, value⟩ := entry
    by_cases removed : first = key
    · by_cases same : other = key
      · simpa [removed, same] using inductionHypothesis
      · have different : (other == key) = false := by simpa using same
        simpa [removed, same, List.lookup_cons, different] using inductionHypothesis
    · rw [List.filter_cons_of_pos (by simpa using removed), List.lookup_cons, List.lookup_cons,
        inductionHypothesis]
      cases found : other == first with
      | true => simp [beq_iff_eq.1 found, removed]
      | false => rfl

/-- An entry after a change was there before or is the changed one. -/
theorem mem_update {key : String} {change : Option α → α} {entries : Keyed α}
    {entry : String × α} (isMember : entry ∈ update key change entries) :
    entry ∈ entries ∨ entry = (key, change none) ∨
      ∃ value, (key, value) ∈ entries ∧ entry = (key, change (some value)) := by
  induction entries with
  | nil => exact .inr (.inl (List.mem_singleton.1 isMember))
  | cons head rest inductionHypothesis =>
    obtain ⟨first, value⟩ := head
    simp only [update] at isMember
    split at isMember
    · rcases List.mem_cons.1 isMember with rfl | isMember
      · exact .inr (.inl rfl)
      · exact .inl isMember
    split at isMember
    · next same =>
      subst same
      rcases List.mem_cons.1 isMember with rfl | isMember
      · exact .inr (.inr ⟨value, List.mem_cons_self, rfl⟩)
      · exact .inl (List.mem_cons_of_mem _ isMember)
    · rcases List.mem_cons.1 isMember with rfl | isMember
      · exact .inl List.mem_cons_self
      · refine (inductionHypothesis isMember).imp (List.mem_cons_of_mem _) (.imp_right ?_)
        rintro ⟨old, isOld, rfl⟩
        exact ⟨old, List.mem_cons_of_mem _ isOld, rfl⟩

/-- Keys that ascend are distinct. -/
theorem Ascending.nodup_keys {entries : Keyed α} (ascending : Ascending entries) :
    (entries.map Prod.fst).Nodup := by
  rw [List.Nodup, List.pairwise_map]
  exact ascending.imp fun below => String.ne_of_lt below

/-! ## Changed values -/

section MapValues

variable {β : Type} (change : α → β)

/-- The entries with their values changed. -/
def mapValues (entries : List (String × α)) : List (String × β) :=
  entries.map fun entry => (entry.1, change entry.2)

@[simp] theorem mapValues_cons (key : String) (value : α) (entries : List (String × α)) :
    mapValues change ((key, value) :: entries) = (key, change value) :: mapValues change entries :=
  rfl

@[simp] theorem length_mapValues (entries : List (String × α)) :
    (mapValues change entries).length = entries.length := List.length_map _

@[simp] theorem lookup_mapValues (entries : List (String × α)) (key : String) :
    (mapValues change entries).lookup key = (entries.lookup key).map change := by
  induction entries with
  | nil => rfl
  | cons entry entries inductionHypothesis =>
    rw [mapValues_cons, List.lookup_cons, List.lookup_cons, inductionHypothesis]
    cases key == entry.1 <;> rfl

@[simp] theorem filter_mapValues (keep : String → Bool) (entries : List (String × α)) :
    (mapValues change entries).filter (fun entry => keep entry.1) =
      mapValues change (entries.filter fun entry => keep entry.1) :=
  List.filter_map

/-- Entries with the same keys are the same after a change that makes their values the same. -/
theorem mapValues_congr {change : α → β} {lefts rights : List (String × α)}
    (keys : lefts.map Prod.fst = rights.map Prod.fst)
    (values : (lefts.map Prod.snd).map change = (rights.map Prod.snd).map change) :
    mapValues change lefts = mapValues change rights := by
  have zipped (entries : List (String × α)) : mapValues change entries =
      (entries.map Prod.fst).zip ((entries.map Prod.snd).map change) :=
    List.zip_of_prod (by simp [mapValues]) (by simp [mapValues])
  rw [zipped, zipped, keys, values]

theorem Ascending.mapValues {entries : Keyed α} (ascending : Ascending entries) :
    Ascending (mapValues change entries) :=
  List.pairwise_map.2 ascending

end MapValues

end ContractAbi.Keyed
