import EditorRpc.Decimal.Shortest
import EditorRpc.Json.Basic
import EditorRpc.Json.FloatText
import EditorRpc.Json.Numeral
import EditorRpc.Json.Parser
import EditorRpc.Json.Printer
import EditorRpc.Json.Syntax
import EditorRpc.Keyed
import EditorRpc.Text.CharClass
import EditorRpc.Text.Utf8
import EditorRpc.Wire.Record
import EditorRpc.Connection
import EditorRpc.Inbox
import EditorRpc.Registry
import EditorRpc.Frame.Writer
import EditorRpc.Frame.Reader
import EditorRpc.Frame.Header
import EditorRpc.Stream.Sink
import EditorRpc.Stream.Source
import EditorRpc.Failure
import EditorRpc.Incoming
import EditorRpc.WindowMessage
import EditorRpc.Outgoing
import EditorRpc.ResponseError
import EditorRpc.Handshake
import EditorRpc.Params
import EditorRpc.CodeLens
import EditorRpc.Location
import EditorRpc.FileUrl
import EditorRpc.DocumentUri
import EditorRpc.RequestId
import EditorRpc.Proofs.Frame.HeaderBlock
import EditorRpc.Proofs.Text.Utf8
import EditorRpc.Proofs.Frame.SelfDelimiting
import EditorRpc.Proofs.Frame.RoundTrip
import EditorRpc.Proofs.Inbox.Cut
import EditorRpc.Proofs.Inbox.Answers
import EditorRpc.Proofs.Connection.Refinement
import EditorRpc.Proofs.Registry.Dispatch
import EditorRpc.Proofs.Inbox.Dropped
import EditorRpc.Proofs.Inbox.Independence
import EditorRpc.Proofs.Wire.Record
import EditorRpc.Proofs.Wire.Values
import EditorRpc.Proofs.Wire.Symmetry
import EditorRpc.Proofs.Incoming.RoundTrip
import EditorRpc.Proofs.Json.RoundTrip
import EditorRpc.Proofs.Wire.Written
import EditorRpc.Proofs.Frame.Written
import EditorRpc.Proofs.Incoming.Echo
import EditorRpc.Proofs.Connection.Broken
import EditorRpc.Proofs.Connection.Peer
import EditorRpc.Proofs.Json.Ordered
import EditorRpc.Proofs.DocumentUri.Path
import EditorRpc.Proofs.Frame.LineMeaning
import EditorRpc.Proofs.Text.Order
import EditorRpc.Proofs.Registry.History
import EditorRpc.Proofs.Wire.Unread
import EditorRpc.Proofs.Registry.Unread
import EditorRpc.Proofs.CodeLens.Arguments
import EditorRpc.Proofs.Frame.Buffers
import EditorRpc.Proofs.ReadLoop.Progress
