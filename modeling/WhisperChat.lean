import WhisperChat.Anchor
import WhisperChat.Blank
import WhisperChat.Decimal
import WhisperChat.Dispatcher
import WhisperChat.Error
import WhisperChat.Gateway.Admission
import WhisperChat.Gateway.Basic
import WhisperChat.Gateway.Connection
import WhisperChat.Gateway.Frame
import WhisperChat.Gateway.Heartbeat
import WhisperChat.Gateway.Link
import WhisperChat.Gateway.Pipe
import WhisperChat.Http.Error
import WhisperChat.Http.MediaType
import WhisperChat.Http.Service
import WhisperChat.Http.Uri
import WhisperChat.Ident
import WhisperChat.IdentSet
import WhisperChat.Instant.Basic
import WhisperChat.Instant.Date
import WhisperChat.Instant.Text
import WhisperChat.Json.Basic
import WhisperChat.Json.Number
import WhisperChat.Json.Text
import WhisperChat.Json.Token
import WhisperChat.Json.Tree
import WhisperChat.Json.Written
import WhisperChat.Main
import WhisperChat.Message
import WhisperChat.Page
import WhisperChat.Proofs.Access
import WhisperChat.Proofs.Admission
import WhisperChat.Proofs.Anchor
import WhisperChat.Proofs.Atomic
import WhisperChat.Proofs.Backward
import WhisperChat.Proofs.Blank
import WhisperChat.Proofs.Commit
import WhisperChat.Proofs.Decimal
import WhisperChat.Proofs.Deletion
import WhisperChat.Proofs.Dispatcher
import WhisperChat.Proofs.Except
import WhisperChat.Proofs.Exchange
import WhisperChat.Proofs.FailClosed
import WhisperChat.Proofs.FanOut
import WhisperChat.Proofs.Fields
import WhisperChat.Proofs.Filter
import WhisperChat.Proofs.Heartbeat
import WhisperChat.Proofs.Insertion
import WhisperChat.Proofs.Instant
import WhisperChat.Proofs.Integrity
import WhisperChat.Proofs.Interleaving
import WhisperChat.Proofs.Joining
import WhisperChat.Proofs.Json
import WhisperChat.Proofs.Link
import WhisperChat.Proofs.Membership
import WhisperChat.Proofs.Newest
import WhisperChat.Proofs.Page
import WhisperChat.Proofs.Reaction
import WhisperChat.Proofs.Reading
import WhisperChat.Proofs.Reference
import WhisperChat.Proofs.Refusal
import WhisperChat.Proofs.Relay
import WhisperChat.Proofs.Request
import WhisperChat.Proofs.Rounds
import WhisperChat.Proofs.Router
import WhisperChat.Proofs.Row
import WhisperChat.Proofs.Run
import WhisperChat.Proofs.Send
import WhisperChat.Proofs.Startup
import WhisperChat.Proofs.Store
import WhisperChat.Proofs.Token
import WhisperChat.Proofs.Visibility
import WhisperChat.Proofs.Walk
import WhisperChat.Proofs.Wire
import WhisperChat.Proofs.Work
import WhisperChat.Send
import WhisperChat.Settings.Config
import WhisperChat.Settings.DatabasePath
import WhisperChat.Settings.EnvFile
import WhisperChat.Settings.SocketAddress
import WhisperChat.Settings.Startup
import WhisperChat.Store.Call
import WhisperChat.Store.Database
import WhisperChat.Store.Error
import WhisperChat.Store.MessageTable
import WhisperChat.Store.Row
import WhisperChat.Store.Shared
import WhisperChat.Store.Work
import WhisperChat.Token.Base64
import WhisperChat.Token.Basic
import WhisperChat.Token.Sha256
import WhisperChat.Visibility
import WhisperChat.Wire.Anchor
import WhisperChat.Wire.Event
import WhisperChat.Wire.Field
import WhisperChat.Wire.Message
import WhisperChat.Wire.Request
import WhisperChat.Wire.Target
