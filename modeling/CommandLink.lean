import CommandLink.AcceptLoop
import CommandLink.Agent.Builtin
import CommandLink.Agent.Invocation
import CommandLink.Agent.Tool
import CommandLink.AgentConfig
import CommandLink.Bytes
import CommandLink.Channel
import CommandLink.CommandLine
import CommandLink.Duplex
import CommandLink.Endpoint
import CommandLink.FileSystem
import CommandLink.Frame.Intake
import CommandLink.Frame.Outgoing
import CommandLink.Host.Basic
import CommandLink.Host.Client
import CommandLink.Host.Command
import CommandLink.Host.Reach
import CommandLink.Host.Settle
import CommandLink.IoError
import CommandLink.Json.Fault
import CommandLink.Json.Lexeme
import CommandLink.Json.Number
import CommandLink.Json.Shape
import CommandLink.Json.Skip
import CommandLink.Json.Written
import CommandLink.Link
import CommandLink.LinkError
import CommandLink.Lookup
import CommandLink.Machine
import CommandLink.Main
import CommandLink.Network
import CommandLink.Path
import CommandLink.Pool
import CommandLink.Pool.Turns
import CommandLink.Proofs.Agent.Aim
import CommandLink.Proofs.Agent.Deadline
import CommandLink.Proofs.Agent.Dropped
import CommandLink.Proofs.Agent.Receivers
import CommandLink.Proofs.Agent.Sessions
import CommandLink.Proofs.Channel.Conserved
import CommandLink.Proofs.Channel.Parting
import CommandLink.Proofs.Closing.Aimed
import CommandLink.Proofs.Closing.Chronicle
import CommandLink.Proofs.Closing.Dated
import CommandLink.Proofs.Closing.Heeded
import CommandLink.Proofs.Closing.Unaided
import CommandLink.Proofs.Codec
import CommandLink.Proofs.CommandLine.Parameters
import CommandLink.Proofs.Delivery.FarEnd
import CommandLink.Proofs.Delivery.Net
import CommandLink.Proofs.Delivery.Pairing
import CommandLink.Proofs.Delivery.Parcels
import CommandLink.Proofs.Delivery.Wired
import CommandLink.Proofs.Files.Changes
import CommandLink.Proofs.Files.Guarded
import CommandLink.Proofs.Files.Joined
import CommandLink.Proofs.Files.Refusals
import CommandLink.Proofs.Files.Site
import CommandLink.Proofs.Files.Succession
import CommandLink.Proofs.Files.Taking
import CommandLink.Proofs.Files.Ways
import CommandLink.Proofs.Frame.Parsing
import CommandLink.Proofs.Frame.Sending
import CommandLink.Proofs.Frame.Stream
import CommandLink.Proofs.Frame.Transfer
import CommandLink.Proofs.Json.Entries
import CommandLink.Proofs.Json.Grammar
import CommandLink.Proofs.Json.Meaning
import CommandLink.Proofs.Json.Members
import CommandLink.Proofs.Json.Skipping
import CommandLink.Proofs.Json.Spelling
import CommandLink.Proofs.Json.Strings
import CommandLink.Proofs.Places
import CommandLink.Proofs.Pool.Lifecycle
import CommandLink.Proofs.Pool.Uses
import CommandLink.Proofs.Properties.PipePath
import CommandLink.Proofs.Properties.SocketPath
import CommandLink.Proofs.Properties.TcpPorts
import CommandLink.Proofs.Queue.Account
import CommandLink.Proofs.Queue.Books
import CommandLink.Proofs.Queue.Boundary
import CommandLink.Proofs.Queue.Change
import CommandLink.Proofs.Queue.Completion
import CommandLink.Proofs.Queue.Holdings
import CommandLink.Proofs.Queue.Ledger
import CommandLink.Proofs.Queue.Order
import CommandLink.Proofs.Queue.Outcome
import CommandLink.Proofs.Queue.Ownership
import CommandLink.Proofs.Queue.Paced
import CommandLink.Proofs.Queue.Route
import CommandLink.Proofs.Queue.Turn
import CommandLink.Proofs.Queue.Watched
import CommandLink.Proofs.RequestBytes
import CommandLink.Proofs.RequestText
import CommandLink.Proofs.Serve.Attended
import CommandLink.Proofs.Serve.Orderly
import CommandLink.Proofs.Serve.Refused
import CommandLink.Proofs.Serve.Transcript
import CommandLink.Proofs.Serve.Visit
import CommandLink.Proofs.Text.ByteOrder
import CommandLink.Proofs.Text.Numerals
import CommandLink.Proofs.Text.Utf8
import CommandLink.Properties
import CommandLink.Receiver
import CommandLink.Rendezvous
import CommandLink.Request
import CommandLink.RequestQueue
import CommandLink.Response
import CommandLink.Serve
import CommandLink.SocketAddress
import CommandLink.Table
import CommandLink.Text.Numeral
import CommandLink.Text.Printable
import CommandLink.Text.Quoted
import CommandLink.Text.Shortest
import CommandLink.Text.Utf8
import CommandLink.Text.WhiteSpace
import CommandLink.TransportKind
import CommandLink.User
