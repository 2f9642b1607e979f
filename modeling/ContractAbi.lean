import ContractAbi.AbiType
import ContractAbi.AbiType.Grammar
import ContractAbi.AbiType.Name
import ContractAbi.AbiType.Nesting
import ContractAbi.Address
import ContractAbi.Argument
import ContractAbi.Argument.Coercion
import ContractAbi.Argument.Rendering
import ContractAbi.Bytes
import ContractAbi.Bytes.Hex
import ContractAbi.Bytes.Keccak
import ContractAbi.Call.Alignment
import ContractAbi.Call.Arrangement
import ContractAbi.Call.Codec
import ContractAbi.Call.Diagnosis
import ContractAbi.Call.Encodability
import ContractAbi.Call.EncodingError
import ContractAbi.Call.Identifier
import ContractAbi.Call.Probed
import ContractAbi.Call.Resolution
import ContractAbi.Decimal.Binary64
import ContractAbi.Decimal.Shortest
import ContractAbi.Integer
import ContractAbi.Interface
import ContractAbi.Interface.Catalog
import ContractAbi.Interface.DeclaredType
import ContractAbi.Interface.Element
import ContractAbi.Interface.Param
import ContractAbi.Interface.Signature
import ContractAbi.Keyed
import ContractAbi.Log.DataFilter
import ContractAbi.Log.EventLookup
import ContractAbi.Log.Topic
import ContractAbi.Settings
import ContractAbi.Settings.Document
import ContractAbi.Settings.Setting
import ContractAbi.Settings.Toml
import ContractAbi.Settings.Variable
import ContractAbi.Text.Digits
import ContractAbi.Text.Escape
import ContractAbi.Text.Printable
import ContractAbi.Text.Quoted
import ContractAbi.Text.Reader
import ContractAbi.Text.Utf8
import ContractAbi.Value
import ContractAbi.Value.Decoding
import ContractAbi.Value.Encoding
import ContractAbi.Proofs.Call.Lookup
import ContractAbi.Proofs.Value.Layout
import ContractAbi.Proofs.Value.Typing
import ContractAbi.Proofs.Value.RoundTrip
import ContractAbi.Proofs.Argument.Coercion
import ContractAbi.Proofs.Call.Codec
import ContractAbi.Proofs.Call.Alignment
import ContractAbi.Proofs.Call.Soundness
import ContractAbi.Proofs.Call.Arrangement
import ContractAbi.Proofs.AbiType.Grammar
import ContractAbi.Proofs.Interface.DeclaredType
import ContractAbi.Proofs.Call.Completeness
import ContractAbi.Proofs.Call.Reordering
import ContractAbi.Proofs.Call.Mismatch
import ContractAbi.Proofs.Log.DataFilter
import ContractAbi.Proofs.Log.Normalization
import ContractAbi.Proofs.Log.EncodedData
import ContractAbi.Proofs.Call.Strictness
import ContractAbi.Proofs.Call.Dedicated
import ContractAbi.Proofs.Argument.Number
import ContractAbi.Proofs.Argument.Widening
import ContractAbi.Proofs.Interface.Signature
import ContractAbi.Proofs.Call.Narrowing
import ContractAbi.Proofs.Call.ArrangementOutcome
import ContractAbi.Proofs.Call.Form
import ContractAbi.Proofs.Call.Shape
import ContractAbi.Proofs.Call.TuplePosition
import ContractAbi.Proofs.Interface.Catalog
import ContractAbi.Proofs.Call.Cataloged
import ContractAbi.Proofs.Call.Encodability
import ContractAbi.Proofs.Argument.Steps
import ContractAbi.Proofs.Argument.Origin
import ContractAbi.Proofs.Argument.SignForm
import ContractAbi.Proofs.Call.SignForm
import ContractAbi.Proofs.Call.Dimensions
import ContractAbi.Proofs.Bytes.Hex
import ContractAbi.Proofs.Log.Topic
import ContractAbi.Proofs.AbiType.Written
import ContractAbi.Proofs.Log.Decider
import ContractAbi.Proofs.Log.LegacyText
import ContractAbi.Proofs.Call.Probes
import ContractAbi.Proofs.Call.FastPath
import ContractAbi.Proofs.Address
import ContractAbi.Proofs.Log.EventLookup
import ContractAbi.Proofs.Argument.Interchange
import ContractAbi.Proofs.Argument.Rendering
import ContractAbi.Proofs.Value.Room
import ContractAbi.Proofs.Settings.Precedence
