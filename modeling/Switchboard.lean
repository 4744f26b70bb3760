import Switchboard.Auth.Token
import Switchboard.Auth.TokenTable
import Switchboard.Banner
import Switchboard.Base64
import Switchboard.Config
import Switchboard.Decimal
import Switchboard.Decimal.Shortest
import Switchboard.Directory
import Switchboard.Gateway.Connection
import Switchboard.Gateway.Dispatch
import Switchboard.Gateway.Interleaving
import Switchboard.Gateway.Node
import Switchboard.Gateway.Request
import Switchboard.Gateway.Script
import Switchboard.Gateway.Server
import Switchboard.Http.Head
import Switchboard.Http.Header
import Switchboard.Http.MediaType
import Switchboard.Http.Message
import Switchboard.Http.Query
import Switchboard.Http.Upgrade
import Switchboard.Http.Url
import Switchboard.Json.Number
import Switchboard.Json.Outline
import Switchboard.Json.Reader
import Switchboard.Json.Token
import Switchboard.Json.Value
import Switchboard.Link.Address
import Switchboard.Link.Client
import Switchboard.Link.Fault
import Switchboard.Link.Name
import Switchboard.Link.Retry
import Switchboard.Link.Run
import Switchboard.Link.Worker
import Switchboard.Log
import Switchboard.Logic.Hub
import Switchboard.Logic.Ingress
import Switchboard.Logic.Node
import Switchboard.Logic.Routing
import Switchboard.Logic.Stream
import Switchboard.Main
import Switchboard.Proofs.Base64
import Switchboard.Proofs.Except
import Switchboard.Proofs.Gateway.Closing
import Switchboard.Proofs.Gateway.Delivery
import Switchboard.Proofs.Gateway.Departure
import Switchboard.Proofs.Gateway.Holding
import Switchboard.Proofs.Gateway.Lifecycle
import Switchboard.Proofs.Gateway.Operations
import Switchboard.Proofs.Gateway.Orderly
import Switchboard.Proofs.Gateway.Settling
import Switchboard.Proofs.Gateway.Turn
import Switchboard.Proofs.Gateway.Waiting
import Switchboard.Proofs.Json.Integer
import Switchboard.Proofs.Json.Scan
import Switchboard.Proofs.Json.Written
import Switchboard.Proofs.Link.Broadcast
import Switchboard.Proofs.Logic.Hub
import Switchboard.Proofs.Session.Membership
import Switchboard.Proofs.Session.Post
import Switchboard.Proofs.Session.Roster
import Switchboard.Proofs.Text.Utf8
import Switchboard.Proofs.WebSocket.Reader
import Switchboard.Proofs.Wire.Envelope
import Switchboard.Session.Custody
import Switchboard.Session.Groups
import Switchboard.Session.Id
import Switchboard.Session.Index
import Switchboard.Session.Mailbox
import Switchboard.Session.Payload
import Switchboard.Sha256
import Switchboard.Startup
import Switchboard.Table
import Switchboard.Text.Blank
import Switchboard.Text.Printable
import Switchboard.Text.Quoted
import Switchboard.Text.Utf8
import Switchboard.WebSocket.Endpoint
import Switchboard.WebSocket.Frame
import Switchboard.WebSocket.Pipe
import Switchboard.WebSocket.Reader
import Switchboard.WebSocket.Socket
import Switchboard.Wire.Args
import Switchboard.Wire.Command
import Switchboard.Wire.Decoder
import Switchboard.Wire.Envelope
import Switchboard.Wire.Fault
import Switchboard.Wire.Hello
import Switchboard.Wire.Packet
import Switchboard.Wire.Push
import Switchboard.Proofs.Link.Greeting
import Switchboard.Proofs.Session.Attendance
import Switchboard.Proofs.Session.Counting
import Switchboard.Proofs.Logic.Fanout
import Switchboard.Proofs.WebSocket.Pipe
import Switchboard.Proofs.WebSocket.Streaming
import Switchboard.Proofs.Link.Retry
import Switchboard.Proofs.Gateway.Taken
import Switchboard.Proofs.Gateway.Journal
import Switchboard.Proofs.Gateway.Course
import Switchboard.Proofs.Gateway.Deadlines
import Switchboard.Proofs.Gateway.Verdict
import Switchboard.Proofs.Gateway.Heartbeat
import Switchboard.Proofs.Gateway.Traffic
import Switchboard.Proofs.Gateway.Queueing
import Switchboard.Proofs.Logic.Stream
import Switchboard.Proofs.Link.Relay
import Switchboard.Proofs.Text.Blank
import Switchboard.Proofs.Config
import Switchboard.Proofs.Auth.Handshake
import Switchboard.Proofs.Gateway.Stranding
import Switchboard.Proofs.Link.Life
import Switchboard.Proofs.WebSocket.Seeking
import Switchboard.Proofs.Logic.Bystanders
import Switchboard.Proofs.Logic.Visit
import Switchboard.Proofs.Logic.Standing
import Switchboard.Proofs.Decimal
import Switchboard.Proofs.Link.Listening
import Switchboard.Proofs.Gateway.Distribution
import Switchboard.Proofs.Gateway.Obedience
import Switchboard.Proofs.Json.Grammar
import Switchboard.Proofs.Wire.Records
import Switchboard.Proofs.Wire.Leniency
import Switchboard.Proofs.Session.Id
import Switchboard.Proofs.Logic.Ingress
import Switchboard.Proofs.Gateway.Entrance
import Switchboard.Proofs.Listing
import Switchboard.Proofs.Tables
import Switchboard.Proofs.Gateway.Ids
import Switchboard.Proofs.Link.Targets
import Switchboard.Proofs.Link.Dialling
import Switchboard.Proofs.Logic.Admission
