import ContractAbi.Call.Codec
import ContractAbi.Settings.Toml
import ContractAbi.Settings.Variable

/-!
# Settings

There is one setting: whether fixed byte strings must be supplied in full. It is strict unless a
settings file says otherwise, and variables override the file.
-/

namespace ContractAbi

/-- The settings of the standard codec. -/
structure Settings where
  /-- Whether fixed byte strings must be supplied in full. -/
  strictBytes : Bool
  deriving DecidableEq

/-- Why no settings could be loaded. -/
inductive SettingsError where
  | malformedFile
  | notBoolean (found : Setting)
  deriving DecidableEq

/-- The wording of an error. -/
def SettingsError.message : SettingsError → String
  | .malformedFile => "malformed settings file"
  | .notBoolean found => "invalid type: found " ++ found.description ++ ", expected a boolean"

namespace Settings

/-- The settings in the absence of others. -/
def default : Settings := ⟨true⟩

/-- The codec with these settings on a host with room for so many bytes. -/
def codec (settings : Settings) (room : Nat) : Codec := Codec.standard settings.strictBytes room

/-- The key of the setting. -/
def strictBytesKey : String := "strict_bytes_type_checking"

/-- The last setting that a variable gives to the key. -/
def ofVariables? (environment : List (String × String)) : Option Setting :=
  let entries := environment.filterMap fun (name, text) => Variable.entry? name text
  entries.reverse.lookup strictBytesKey

/-- The settings of a file, if there is one, and of variables in their order. -/
def load (file : Option String) (environment : List (String × String)) :
    Except SettingsError Settings :=
  match file.mapM Toml.parse? with
  | none => .error .malformedFile
  | some settings? =>
    let inFile := settings?.bind fun settings => settings.lookup strictBytesKey
    match ofVariables? environment <|> inFile with
    | none => .ok default
    | some (.bool value) => .ok ⟨value⟩
    | some found => .error (.notBoolean found)

end Settings

end ContractAbi
