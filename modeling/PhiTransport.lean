import PhiTransport.Base.Octets
import PhiTransport.Base.Binary64
import PhiTransport.Base.Json.Grammar
import PhiTransport.Base.Json.Reader
import PhiTransport.Base.Json.Soundness
import PhiTransport.Base.Json.Splitting
import PhiTransport.Base.Json.Members
import PhiTransport.Base.Json.Record
import PhiTransport.Base.Json.Numbers
import PhiTransport.Base.Nlohmann
import PhiTransport.Base.Dump
import PhiTransport.Base.Base64
import PhiTransport.Base.Sha256
import PhiTransport.Base.Utf8
import PhiTransport.Base.Documents
import PhiTransport.Base.Correlation
import PhiTransport.Api.JsonText
import PhiTransport.Api.Scalar
import PhiTransport.Api.Management
import PhiTransport.Api.LogEntry
import PhiTransport.Api.TransportTypes
import PhiTransport.Api.Envelope
import PhiTransport.Api.Scram
import PhiTransport.Api.CommandFrame
import PhiTransport.Api.CoreFacade
import PhiTransport.Api.TransportInterface
import PhiTransport.Dispatch.Doors
import PhiTransport.Dispatch.Answers
import PhiTransport.Dispatch.Rejections
import PhiTransport.Dispatch.Runs
import PhiTransport.Dispatch.Surface
import PhiTransport.Frames.Writing
import PhiTransport.Frames.Splicing
import PhiTransport.Frames.Nesting
import PhiTransport.Frames.Cids
import PhiTransport.Frames.Reading
import PhiTransport.Frames.Responses
import PhiTransport.Frames.Encoding
import PhiTransport.Records.Fields
import PhiTransport.Records.LogEntries
import PhiTransport.Records.Errors
import PhiTransport.Records.Placeholders
import PhiTransport.Records.Management
import PhiTransport.Records.Rendering
import PhiTransport.Login.Transcript
import PhiTransport.Login.Keys
import PhiTransport.Login.Replay
import PhiTransport.Protocol.Messages
import PhiTransport.Protocol.Exchange
import PhiTransport.Protocol.Runs
import PhiTransport.Protocol.Settlement
import PhiTransport.Protocol.Completion
import PhiTransport.Protocol.Lifecycles
import PhiTransport.Protocol.Replies
import PhiTransport.Protocol.Contract
import PhiTransport.Protocol.Wire
import PhiTransport.Protocol.Disclosure
import PhiTransport.Protocol.Rewriting
