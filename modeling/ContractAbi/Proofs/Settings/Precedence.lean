import ContractAbi.Settings

/-!
# Which setting wins

The default gives way to a settings file, and the file to variables, of which the last one that
gives a setting counts. A file that breaks the rules of its format is an error whatever the
variables say. `Settings.load_outcome` says for every file and all variables what is loaded.
-/

namespace ContractAbi.Settings

/-- The variable gives the setting to the key. -/
def Gives (entry : String × String) (setting : Setting) : Prop :=
  Variable.entry? entry.1 entry.2 = some (strictBytesKey, setting)

/-- The last variable that gives a setting to the key gives this one. -/
def SetByVariables (environment : List (String × String)) (setting : Setting) : Prop :=
  ∃ before entry after, environment = before ++ entry :: after ∧ Gives entry setting ∧
    ∀ later ∈ after, ∀ other, ¬Gives later other

/-- There is a file, and it gives the setting to the key. -/
def SetByFile (file : Option String) (setting : Setting) : Prop :=
  ∃ text settings, file = some text ∧ Toml.parse? text = some settings ∧
    settings.lookup strictBytesKey = some setting

/-- The setting wins over all others: variables give it, or they give none and the file does. -/
inductive Wins (file : Option String) (environment : List (String × String)) : Setting → Prop where
  | byVariables {setting : Setting} (set : SetByVariables environment setting) :
    Wins file environment setting
  | byFile {setting : Setting} (silent : ∀ entry ∈ environment, ∀ other, ¬Gives entry other)
    (set : SetByFile file setting) : Wins file environment setting

/-- The file, if there is one, breaks a rule of its format. -/
def Malformed (file : Option String) : Prop := ∃ text, file = some text ∧ Toml.parse? text = none

variable {file : Option String} {environment : List (String × String)} {setting : Setting}

/-! ## Variables -/

/-- The setting that a variable gives to the key, if it gives one. -/
def given? (entry : String × String) : Option Setting :=
  (Variable.entry? entry.1 entry.2).bind fun (key, setting) =>
    if key = strictBytesKey then some setting else none

theorem given?_eq_some_iff {entry : String × String} :
    given? entry = some setting ↔ Gives entry setting := by
  simp [given?, Gives, Option.bind_eq_some_iff]

theorem given?_eq_none_iff {entry : String × String} :
    given? entry = none ↔ ∀ other, ¬Gives entry other := by
  simp only [Option.eq_none_iff_forall_ne_some, ne_eq, given?_eq_some_iff]

/-- Looking up the key among what variables say is asking them one after the other. -/
theorem lookup_filterMap_entry? (entries : List (String × String)) :
    (entries.filterMap fun (name, text) => Variable.entry? name text).lookup strictBytesKey =
      entries.findSome? given? := by
  induction entries with
  | nil => rfl
  | cons entry entries inductionHypothesis =>
    obtain ⟨name, text⟩ := entry
    rw [List.findSome?_cons, ← inductionHypothesis]
    cases outcome : Variable.entry? name text with
    | none => simp [given?, outcome]
    | some pair =>
      obtain ⟨key, setting⟩ := pair
      by_cases same : key = strictBytesKey
      · simp [given?, outcome, same]
      · have other : (strictBytesKey == key) = false := beq_false_of_ne (Ne.symm same)
        simp [given?, outcome, same, List.lookup_cons, other]

theorem ofVariables?_eq_findSome? (environment : List (String × String)) :
    ofVariables? environment = environment.reverse.findSome? given? := by
  rw [ofVariables?, ← List.filterMap_reverse, lookup_filterMap_entry?]

theorem ofVariables?_eq_some_iff :
    ofVariables? environment = some setting ↔ SetByVariables environment setting := by
  rw [ofVariables?_eq_findSome?, List.findSome?_eq_some_iff]
  simp only [given?_eq_some_iff, given?_eq_none_iff, SetByVariables]
  constructor
  · rintro ⟨after, entry, before, split, gives, silent⟩
    refine ⟨before.reverse, entry, after.reverse, ?_, gives, ?_⟩
    · simpa using congrArg List.reverse split
    · intro later member
      exact silent later (List.mem_reverse.1 member)
  · rintro ⟨before, entry, after, rfl, gives, silent⟩
    refine ⟨after.reverse, entry, before.reverse, by simp, gives, ?_⟩
    intro later member
    exact silent later (List.mem_reverse.1 member)

theorem ofVariables?_eq_none_iff :
    ofVariables? environment = none ↔ ∀ entry ∈ environment, ∀ other, ¬Gives entry other := by
  simp [ofVariables?_eq_findSome?, given?_eq_none_iff]

/-! ## Files -/

theorem malformed_iff : Malformed file ↔ file.mapM Toml.parse? = none := by
  cases file with
  | none => simp [Malformed]
  | some text => simp [Malformed]

/-- What a file that can be read gives to the key. -/
theorem setByFile_iff {settings? : Option (Keyed Setting)}
    (read : file.mapM Toml.parse? = some settings?) :
    (settings?.bind fun settings => settings.lookup strictBytesKey) = some setting ↔
      SetByFile file setting := by
  cases file with
  | none =>
    cases read
    simp [SetByFile]
  | some text =>
    cases parsed : Toml.parse? text with
    | none => simp [parsed] at read
    | some settings =>
      obtain rfl : some settings = settings? := by simpa [parsed] using read
      simp [SetByFile, parsed]

/-! ## The winner -/

/-- Asking the variables first and then the file gives the winning setting. -/
theorem wins_iff {settings? : Option (Keyed Setting)}
    (read : file.mapM Toml.parse? = some settings?) :
    (ofVariables? environment <|>
        settings?.bind fun settings => settings.lookup strictBytesKey) = some setting ↔
      Wins file environment setting := by
  cases given : ofVariables? environment with
  | some first =>
    have set := ofVariables?_eq_some_iff.1 given
    constructor
    · intro equal
      obtain rfl : first = setting := by simpa using equal
      exact .byVariables set
    · intro wins
      cases wins with
      | byVariables other =>
        have same := given.symm.trans (ofVariables?_eq_some_iff.2 other)
        simpa using same
      | byFile silent => simp [ofVariables?_eq_none_iff.2 silent] at given
  | none =>
    have silent := ofVariables?_eq_none_iff.1 given
    constructor
    · intro found
      exact .byFile silent ((setByFile_iff read).1 found)
    · intro wins
      cases wins with
      | byVariables set => simp [ofVariables?_eq_some_iff.2 set] at given
      | byFile _ set => exact (setByFile_iff read).2 set

/-- What is loaded. A malformed file is the error, whatever the variables say. Otherwise the winning
setting decides: a truth value is loaded, anything else is the error, and without one the default is
loaded. -/
theorem load_outcome (file : Option String) (environment : List (String × String)) :
    (load file environment = .error .malformedFile ↔ Malformed file) ∧
    (∀ found, load file environment = .error (.notBoolean found) ↔
      ¬Malformed file ∧ Wins file environment found ∧ ∀ value, found ≠ .bool value) ∧
    ∀ settings, load file environment = .ok settings ↔
      ¬Malformed file ∧ (Wins file environment (.bool settings.strictBytes) ∨
        settings = default ∧ ∀ setting, ¬Wins file environment setting) := by
  unfold load
  cases read : file.mapM Toml.parse? with
  | none =>
    have malformed : Malformed file := malformed_iff.2 read
    simp [malformed]
  | some settings? =>
    have sound : ¬Malformed file := by simp [malformed_iff, read]
    have winner : ∀ setting, Wins file environment setting ↔
        (ofVariables? environment <|>
          settings?.bind fun settings => settings.lookup strictBytesKey) = some setting :=
      fun setting => (wins_iff read).symm
    simp only [sound, winner]
    cases (ofVariables? environment <|>
        settings?.bind fun settings => settings.lookup strictBytesKey) with
    | none => simp [eq_comm]
    | some found =>
      cases found with
      | bool value =>
        have same : ∀ settings : Settings, ⟨value⟩ = settings ↔ value = settings.strictBytes :=
          fun ⟨_⟩ => by simp
        simp [same]
      | _ => simp

end ContractAbi.Settings
