import Jbuu.Library.Program
import Jbuu.Library.Runs
import Jbuu.Library.IdealAead
import Jbuu.Types
import Jbuu.Anchor.Record
import Jbuu.Allocator.Transaction
import Jbuu.Allocator.Disk
import Jbuu.Allocator.Persistence
import Jbuu.Allocator.Reservation
import Jbuu.Allocator.Recovery
import Jbuu.Allocator.Failures
import Jbuu.Allocator.Runs
import Jbuu.Allocator.Atomicity
import Jbuu.Session.Nonce
import Jbuu.Session.Session
import Jbuu.Session.Channel
import Jbuu.Codec.Message
import Jbuu.Handshake.Confirm
import Jbuu.Handshake.Client
import Jbuu.Handshake.Server
import Jbuu.Handshake.Failure
import Jbuu.Handshake.World
import Jbuu.Handshake.Register
import Jbuu.Handshake.Agreement
import Jbuu.Library.OneTime
import Jbuu.FullOtp.Wire
import Jbuu.FullOtp.Pad
import Jbuu.FullOtp.Record
import Jbuu.FullOtp.Pump
import Jbuu.FullOtp.FailClosed
import Jbuu.FullOtp.Accounting
import Jbuu.FullOtp.Audit
import Jbuu.Library.Fifo
import Jbuu.FullOtp.Exchange
import Jbuu.FullOtp.Pair
import Jbuu.FullOtp.Synchrony
import Jbuu.FullOtp.Prefetch
import Jbuu.FullOtp.Relief
import Jbuu.Transport.Polling
import Jbuu.Terminal.Lease
import Jbuu.Handshake.Segments
import Jbuu.Library.Layers
import Jbuu.Recovery.Recover
import Jbuu.Recovery.Agreement
import Jbuu.Recovery.StartUp
import Jbuu.Library.Interference
import Jbuu.Recovery.SecondProcess
import Jbuu.Allocator.Processes
import Jbuu.Codec.Wire
import Jbuu.Transport.Streaming
import Jbuu.Terminal.Frame
import Jbuu.Session.DataFrames
import Jbuu.Session.Drivers
import Jbuu.Anchor.Laws
import Jbuu.FullOtp.RoundTrip
import Jbuu.Library.Json
import Jbuu.Library.Lines
import Jbuu.Library.Gregorian
import Jbuu.Library.Decimal
import Jbuu.Library.Utf8
import Jbuu.Doorkeeper.Log
import Jbuu.Doorkeeper.Calendar
import Jbuu.Doorkeeper.Observer
import Jbuu.Library.WriteLoop
import Jbuu.Platform.Delivery
import Jbuu.Doorkeeper.LogFile
import Jbuu.Doorkeeper.Relay
import Jbuu.Doorkeeper.Transparent
import Jbuu.Doorkeeper.Slots
import Jbuu.Terminal.Hub
import Jbuu.Terminal.Drive
import Jbuu.Terminal.Holders
import Jbuu.Terminal.Drains
import Jbuu.Terminal.Exit
import Jbuu.Library.Grouped
import Jbuu.FullOtp.Control
import Jbuu.Terminal.Input
import Jbuu.Terminal.Retire
import Jbuu.Terminal.Opener
import Jbuu.Platform.Write
import Jbuu.Anchor.Init
import Jbuu.Platform.LeaseFile
import Jbuu.Platform.AuditLog
import Jbuu.Book.Header
import Jbuu.Book.File
import Jbuu.Book.Generate
import Jbuu.Library.Repeats
import Jbuu.Book.Inspect
import Jbuu.Library.JsonTree
import Jbuu.Book.Report
import Jbuu.Anchor.Report
import Jbuu.Terminal.Client
import Jbuu.Terminal.Records
import Jbuu.Terminal.Integrity
import Jbuu.Library.Agents
import Jbuu.Library.Duplex
import Jbuu.Library.ChaCha20Poly1305
import Jbuu.Session.Conversation
import Jbuu.Handshake.Drivers
import Jbuu.Handshake.Honest
import Jbuu.Recovery.Interrupted
import Jbuu.Station.Ground
import Jbuu.Station.Handshakes
import Jbuu.Station.Processes
import Jbuu.Station.History
import Jbuu.Station.Life
import Jbuu.Library.OneTimePad
import Jbuu.FullOtp.Masked
import Jbuu.FullOtp.Line
import Jbuu.FullOtp.Secrecy
import Jbuu.Terminal.Output
import Jbuu.Terminal.Display
import Jbuu.Terminal.Completeness
import Jbuu.Allocator.Capacity
