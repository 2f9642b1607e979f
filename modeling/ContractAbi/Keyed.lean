/-!
# Lists in key order

Entries under distinct text keys, in ascending order of the keys. Setting an entry keeps the order
and touches no other key.
-/

namespace ContractAbi

/-- Values under text keys. -/
abbrev Keyed (α : Type) := List (String × α)

namespace Keyed

variable {α : Type}

/-- The keys are distinct and ascend. -/
def Ascending (entries : Keyed α) : Prop :=
  entries.Pairwise fun left right => left.1 < right.1

/-- The entries after the one under `key` has become `change` of what it was. -/
def update (key : String) (change : Option α → α) : Keyed α → Keyed α
  | [] => [(key, change none)]
  | (first, value) :: rest =>
    if key < first then (key, change none) :: (first, value) :: rest
    else if key = first then (key, change (some value)) :: rest
    else (first, value) :: update key change rest

/-- The entries with `value` under `key`. -/
def insert (key : String) (value : α) (entries : Keyed α) : Keyed α :=
  update key (fun _ => value) entries

/-- The entries in key order, where a later entry replaces an earlier one under its key. -/
def ofList (entries : List (String × α)) : Keyed α :=
  entries.foldl (fun sorted entry => insert entry.1 entry.2 sorted) []

/-- The keys are those that were there and the one that was set. -/
theorem mem_keys_update {key other : String} {change : Option α → α} {entries : Keyed α} :
    other ∈ (update key change entries).map Prod.fst ↔
      other = key ∨ other ∈ entries.map Prod.fst := by
  induction entries with
  | nil => simp [update]
  | cons entry rest inductionHypothesis =>
    obtain ⟨first, value⟩ := entry
    simp only [update]
    split
    · simp
    · split
      · next equal => subst equal; simp
      · simp only [List.map_cons, List.mem_cons, inductionHypothesis]
        grind

theorem Ascending.update {entries : Keyed α} (ascending : Ascending entries) (key : String)
    (change : Option α → α) : Ascending (Keyed.update key change entries) := by
  induction entries with
  | nil => simp [Keyed.update, Ascending]
  | cons entry rest inductionHypothesis =>
    obtain ⟨first, value⟩ := entry
    have ⟨above, restAscending⟩ := List.pairwise_cons.1 ascending
    simp only [Keyed.update]
    split
    · next below =>
      refine List.pairwise_cons.2 ⟨?_, ascending⟩
      intro other member
      rcases List.mem_cons.1 member with rfl | member
      · exact below
      · exact String.lt_trans below (above other member)
    · next notBelow =>
      split
      · next equal =>
        subst equal
        exact List.pairwise_cons.2 ⟨above, restAscending⟩
      · next different =>
        refine List.pairwise_cons.2 ⟨?_, inductionHypothesis restAscending⟩
        intro other member
        have keys := mem_keys_update.1 (List.mem_map_of_mem member)
        rcases keys with equal | member
        · show first < other.1
          rw [equal]
          exact Decidable.byContradiction fun notAbove =>
            different (String.le_antisymm notAbove notBelow)
        · obtain ⟨entry, entryMember, equal⟩ := List.mem_map.1 member
          show first < other.1
          rw [← equal]
          exact above entry entryMember

theorem ascending_ofList (entries : List (String × α)) : Ascending (ofList entries) := by
  have general : ∀ (entries : List (String × α)) (sorted : Keyed α), Ascending sorted →
      Ascending (entries.foldl (fun sorted entry => insert entry.1 entry.2 sorted) sorted) := by
    intro entries
    induction entries with
    | nil => intro sorted ascending; exact ascending
    | cons entry entries inductionHypothesis =>
      intro sorted ascending
      exact inductionHypothesis _ (ascending.update entry.1 fun _ => entry.2)
  exact general entries [] List.Pairwise.nil

end Keyed

end ContractAbi
