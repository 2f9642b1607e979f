import ContractAbi.Call.Codec

/-!
# Log topics

A topic is raw bytes or hexadecimal text, with or without the marker `0x` and with any number of
digits. The first topic of a log is the signature hash of its event unless the event is anonymous.
-/

namespace ContractAbi

/-- A topic of a log. -/
inductive Topic where
  | hex (text : String)
  | raw (bytes : Bytes)
  deriving DecidableEq

/-- Why the topics of a log do not belong to an event. -/
inductive TopicError where
  | invalidTopic (topic : String) (fault : Hex.Fault)
  | missingTopics
  | signatureMismatch (expected : Word) (actual : Bytes)
  deriving DecidableEq

/-- The wording of an error. -/
def TopicError.message : TopicError → String
  | .invalidTopic topic fault =>
    "invalid log topic " ++ Text.Quoted.text topic ++ ": " ++ fault.message
  | .missingTopics => "expected non-anonymous event to have 1 or more topics"
  | .signatureMismatch expected actual =>
    "the event signature did not match the provided ABI: expected " ++ Hex.encode expected.1 ++
      ", got " ++ Hex.encode actual

namespace Topic

/-- The text behind one marker `0x`, if it has one. -/
def dropMarker : List Char → List Char
  | '0' :: 'x' :: rest => rest
  | text => text

/-- The text with a zero in front when it takes an odd number of bytes. -/
def fillUp (digits : List Char) : List Char :=
  if Hex.byteLength digits % 2 = 1 then '0' :: digits else digits

/-- The bytes of a topic. -/
def toBytes : Topic → Except TopicError Bytes
  | .raw bytes => .ok bytes
  | .hex text =>
    (Hex.decode (fillUp (dropMarker text.toList))).mapError (.invalidTopic text)

end Topic

/-- The topics of an event's log behind its signature hash. An anonymous event has none, and its
topics are not looked at. A log without topics counts as one with no topic. -/
def Event.stripSignature (event : Event) (codec : Codec) (topics : Option (List Topic)) :
    Except TopicError (List Topic) :=
  if event.anonymous then .ok (topics.getD [])
  else
    match topics.getD [] with
    | [] => .error .missingTopics
    | first :: rest => do
      let actual ← first.toBytes
      let expected := codec.signatureHash event
      if actual = expected.1 then return rest else throw (.signatureMismatch expected actual)

end ContractAbi
