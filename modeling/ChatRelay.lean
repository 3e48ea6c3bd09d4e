import ChatRelay.Bus.Channel
import ChatRelay.Bus.Subscribers
import ChatRelay.Calendar.Date
import ChatRelay.Calendar.Rfc3339
import ChatRelay.Chat.Api
import ChatRelay.Chat.Event
import ChatRelay.Chat.Message
import ChatRelay.Chat.Room
import ChatRelay.Chat.Session
import ChatRelay.Decimal.Binary64
import ChatRelay.Decimal.Layout
import ChatRelay.Decimal.Shortest
import ChatRelay.Frame.Codec
import ChatRelay.Json.Describe
import ChatRelay.Json.Fault
import ChatRelay.Json.Reader
import ChatRelay.Json.Record
import ChatRelay.Json.Skip
import ChatRelay.Json.Token
import ChatRelay.Json.Value
import ChatRelay.Json.Writer
import ChatRelay.Link.Connection
import ChatRelay.Link.Reader
import ChatRelay.Link.Socket
import ChatRelay.Link.Storage
import ChatRelay.Link.Writer
import ChatRelay.Main
import ChatRelay.Monitor.Log
import ChatRelay.Monitor.Metrics
import ChatRelay.Monitor.Monitor
import ChatRelay.Net.Address
import ChatRelay.Proofs.Bus.Delivery
import ChatRelay.Proofs.Bus.Guards
import ChatRelay.Proofs.Bus.Publish
import ChatRelay.Proofs.Bus.Slots
import ChatRelay.Proofs.Bus.BusRun
import ChatRelay.Proofs.Calendar.Days
import ChatRelay.Proofs.Calendar.Stamps
import ChatRelay.Proofs.Chat.SessionSlots
import ChatRelay.Proofs.Chat.EventOrder
import ChatRelay.Proofs.Chat.ByTime
import ChatRelay.Proofs.Chat.EnvelopeLength
import ChatRelay.Proofs.Chat.EventSteps
import ChatRelay.Proofs.Chat.EventTrip
import ChatRelay.Proofs.Chat.Handshake
import ChatRelay.Proofs.Chat.Identity
import ChatRelay.Proofs.Chat.Paging
import ChatRelay.Proofs.Chat.SharedRoom
import ChatRelay.Proofs.Chat.ClientStages
import ChatRelay.Proofs.Chat.Writing
import ChatRelay.Proofs.Decimal.Digits
import ChatRelay.Proofs.Frame.Accounting
import ChatRelay.Proofs.Frame.Cuts
import ChatRelay.Proofs.Frame.Feed
import ChatRelay.Proofs.Frame.LastLine
import ChatRelay.Proofs.Frame.Transport
import ChatRelay.Proofs.Frame.Unstructured
import ChatRelay.Proofs.Json.Findings
import ChatRelay.Proofs.Json.Grammar
import ChatRelay.Proofs.Json.GrammarWalk
import ChatRelay.Proofs.Json.Members
import ChatRelay.Proofs.Json.Nesting
import ChatRelay.Proofs.Json.ReadTokens
import ChatRelay.Proofs.Json.ReadWalk
import ChatRelay.Proofs.Json.ReadWritten
import ChatRelay.Proofs.Json.RecordWalk
import ChatRelay.Proofs.Json.Records
import ChatRelay.Proofs.Json.TokenWalk
import ChatRelay.Proofs.Json.Values
import ChatRelay.Proofs.Json.Walk
import ChatRelay.Proofs.Json.Written
import ChatRelay.Proofs.Json.WrittenTokens
import ChatRelay.Proofs.Link.Output
import ChatRelay.Proofs.Link.Sending
import ChatRelay.Proofs.Route.Branches
import ChatRelay.Proofs.Route.Captures
import ChatRelay.Proofs.Route.Deadlines
import ChatRelay.Proofs.Route.Layering
import ChatRelay.Proofs.Route.OwnUrl
import ChatRelay.Proofs.Route.Registering
import ChatRelay.Proofs.Route.Scan
import ChatRelay.Proofs.Server.Admission
import ChatRelay.Proofs.Server.Answering
import ChatRelay.Proofs.Server.Connections
import ChatRelay.Proofs.Server.AtomicSteps
import ChatRelay.Proofs.Server.Families
import ChatRelay.Proofs.Server.Outcomes
import ChatRelay.Proofs.Server.Scheduling
import ChatRelay.Proofs.Server.ExchangeSteps
import ChatRelay.Proofs.Settings.Merging
import ChatRelay.Proofs.Settings.Running
import ChatRelay.Proofs.Store.History
import ChatRelay.Proofs.Store.Identifiers
import ChatRelay.Proofs.Store.Index
import ChatRelay.Proofs.Store.AccountCalls
import ChatRelay.Proofs.Store.Slices
import ChatRelay.Proofs.Store.Validity
import ChatRelay.Proofs.Text.Encoding
import ChatRelay.Proofs.Toml.Keys
import ChatRelay.Proofs.Wire.RequestTrip
import ChatRelay.Proofs.Wire.ResponseTrip
import ChatRelay.Route.Dispatch
import ChatRelay.Route.Mux
import ChatRelay.Route.Pattern
import ChatRelay.Route.Sample
import ChatRelay.Route.Service
import ChatRelay.Route.Tree
import ChatRelay.Server.ConnectionTask
import ChatRelay.Server.Hub
import ChatRelay.Server.Listener
import ChatRelay.Server.Tasks
import ChatRelay.Settings.CommandLine
import ChatRelay.Settings.Settings
import ChatRelay.Store.Account
import ChatRelay.Store.Tables
import ChatRelay.Store.Uuid
import ChatRelay.Text.Hidden
import ChatRelay.Text.Integer
import ChatRelay.Text.Quoted
import ChatRelay.Text.Split
import ChatRelay.Text.Utf8
import ChatRelay.Toml.Document
import ChatRelay.Toml.Node
import ChatRelay.Wire.Request
import ChatRelay.Wire.Response
import ChatRelay.Wire.Status
