import ContractAbi.Call.Codec
import ContractAbi.Call.Probed

/-!
# Filters over log data

A filter has one entry for each argument in the data of a log. An entry may list the values that it
accepts; they are tried in order until one equals the decoded argument.
-/

namespace ContractAbi

/-- One argument of the data, and the values that it may take. Without such a list it may take any
value. -/
structure FilterEntry where
  type : String
  accepted : Option (List Argument)

/-- A filter over the data of a log. -/
structure DataFilter where
  entries : List FilterEntry

/-- Why a filter cannot be decided. -/
inductive FilterError where
  | invalidValue (type : String) (value : Argument)
  | encoding (error : EncodingError)

/-- The wording of an error. -/
def FilterError.message : FilterError → String
  | .invalidValue type value =>
    "filter value " ++ value.toText ++ " is of the wrong ABI type, expected a `" ++ type ++
      "` value"
  | .encoding error => error.message

namespace Value

/-- Byte strings where the type has texts, alone or in arrays, become texts if they spell any. -/
def normalize : AbiType → Value → Value
  | .string, .bytes content =>
    match Text.ofUtf8? content with
    | some text => .string text
    | none => .bytes content
  | .array element, .array items => .array (items.map (normalize element))
  | .fixedArray element _, .fixedArray items => .fixedArray (items.map (normalize element))
  | _, value => value

/-- Normalizes a value at the type that a text stands for, if it stands for one. -/
def normalizeText (type : String) (value : Value) : Value :=
  match AbiType.parse? type with
  | some type => normalize type value
  | none => value

end Value

namespace DataFilter

/-- Whether no entry restricts its argument. -/
def isEmpty (filter : DataFilter) : Bool :=
  filter.entries.all fun entry => entry.accepted.isNone

/-- The types of the entries in order. -/
def types (filter : DataFilter) : List String := filter.entries.map FilterEntry.type

/-- Whether one of the accepted values equals the decoded one. A value that is reached before that
must be one of the type. -/
def accepts (codec : Codec) (type : String) (decoded : Value) :
    List Argument → Probed (Except FilterError Bool)
  | [] => .unprobed (.ok false)
  | candidate :: others =>
    match codec.coerce type candidate with
    | none => ⟨.error (.invalidValue type candidate), [type]⟩
    | some expected =>
      if expected = decoded then ⟨.ok true, [type]⟩
      else (accepts codec type decoded others).behind type

/-- Whether every decoded value is accepted by its entry; the first one that is not decides. -/
def acceptsEach (codec : Codec) : List FilterEntry → List Value → Probed (Except FilterError Bool)
  | ⟨_, none⟩ :: entries, _ :: values => acceptsEach codec entries values
  | ⟨type, some accepted⟩ :: entries, value :: values =>
    (accepts codec type (Value.normalizeText type value) accepted).andThen fun
      | .ok true => acceptsEach codec entries values
      | verdict => .unprobed verdict
  | _, _ => .unprobed (.ok true)

/-- Whether data passes the filter. An empty filter passes all data undecoded. -/
def passes (filter : DataFilter) (codec : Codec) (data : Bytes) :
    Probed (Except FilterError Bool) :=
  if filter.isEmpty then .unprobed (.ok true)
  else
    match codec.decode filter.types data with
    | .error error => .unprobed (.error (.encoding error))
    | .ok values => acceptsEach codec filter.entries values

end DataFilter

end ContractAbi
