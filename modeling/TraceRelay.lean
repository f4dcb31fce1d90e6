import TraceRelay.Address
import TraceRelay.Batch
import TraceRelay.Batch.Decoder
import TraceRelay.Batch.Reader
import TraceRelay.Buffer
import TraceRelay.Bytes
import TraceRelay.Channel
import TraceRelay.Checksum
import TraceRelay.Clocked
import TraceRelay.Collector.Failure
import TraceRelay.Collector.Server
import TraceRelay.CommandLine
import TraceRelay.Config
import TraceRelay.Config.Check
import TraceRelay.Config.Failure
import TraceRelay.Config.Form
import TraceRelay.Config.Load
import TraceRelay.Connector
import TraceRelay.Connector.Pool
import TraceRelay.Courier
import TraceRelay.Deflate.Code
import TraceRelay.Deflate.Inflate
import TraceRelay.Delivery
import TraceRelay.Duration
import TraceRelay.Duration.Spans
import TraceRelay.Encoding
import TraceRelay.Event
import TraceRelay.Fault
import TraceRelay.Frame
import TraceRelay.Gzip.Decoder
import TraceRelay.Gzip.Encoder
import TraceRelay.Gzip.Header
import TraceRelay.Gzip.Reader
import TraceRelay.Intake
import TraceRelay.Json
import TraceRelay.Log
import TraceRelay.Log.Filter
import TraceRelay.Log.Text
import TraceRelay.Main
import TraceRelay.Net
import TraceRelay.Peer
import TraceRelay.Peer.Header
import TraceRelay.Plan
import TraceRelay.Program
import TraceRelay.Proofs.Buffer
import TraceRelay.Proofs.Cancellation
import TraceRelay.Proofs.Channel
import TraceRelay.Proofs.Closing
import TraceRelay.Proofs.Collector.Books
import TraceRelay.Proofs.Collector.Floor
import TraceRelay.Proofs.Collector.Lives
import TraceRelay.Proofs.Collector.Reads
import TraceRelay.Proofs.Collector.Receipt
import TraceRelay.Proofs.Collector.Run
import TraceRelay.Proofs.Config.Check
import TraceRelay.Proofs.Config.Start
import TraceRelay.Proofs.Connector
import TraceRelay.Proofs.Connector.Attempts
import TraceRelay.Proofs.Connector.CallOrder
import TraceRelay.Proofs.Connector.Openings
import TraceRelay.Proofs.Connector.Pool
import TraceRelay.Proofs.Connector.Progress
import TraceRelay.Proofs.Connector.Protocol
import TraceRelay.Proofs.Connector.Stopping
import TraceRelay.Proofs.Connector.Tracked
import TraceRelay.Proofs.Courier.Accounting
import TraceRelay.Proofs.Courier.Closed
import TraceRelay.Proofs.Courier.Delivered
import TraceRelay.Proofs.Courier.FairTurns
import TraceRelay.Proofs.Courier.FirstOpening
import TraceRelay.Proofs.Courier.FrameLimit
import TraceRelay.Proofs.Courier.Handling
import TraceRelay.Proofs.Courier.Laps
import TraceRelay.Proofs.Courier.LastBatch
import TraceRelay.Proofs.Courier.Lifecycle
import TraceRelay.Proofs.Courier.OnRecord
import TraceRelay.Proofs.Courier.Reckoning
import TraceRelay.Proofs.Courier.Reports
import TraceRelay.Proofs.Courier.Run
import TraceRelay.Proofs.Courier.Served
import TraceRelay.Proofs.Courier.Step
import TraceRelay.Proofs.Courier.Stranded
import TraceRelay.Proofs.Courier.StreamLife
import TraceRelay.Proofs.Courier.Streams
import TraceRelay.Proofs.Courier.Unbroken
import TraceRelay.Proofs.Courier.Undisturbed
import TraceRelay.Proofs.Courier.Wakes
import TraceRelay.Proofs.Courier.WindUp
import TraceRelay.Proofs.EndToEnd
import TraceRelay.Proofs.Framing.Agreement
import TraceRelay.Proofs.Framing.Exact
import TraceRelay.Proofs.Framing.Faulty
import TraceRelay.Proofs.Framing.Incremental
import TraceRelay.Proofs.Framing.Ledger
import TraceRelay.Proofs.Framing.OnRequest
import TraceRelay.Proofs.Framing.Oversized
import TraceRelay.Proofs.Framing.Prefix
import TraceRelay.Proofs.Framing.Reading
import TraceRelay.Proofs.Framing.Scan
import TraceRelay.Proofs.Framing.TraceFile
import TraceRelay.Proofs.Framing.Written
import TraceRelay.Proofs.Gzip.Growth
import TraceRelay.Proofs.Gzip.OnRequest
import TraceRelay.Proofs.Gzip.Sound
import TraceRelay.Proofs.Gzip.Stored
import TraceRelay.Proofs.Intake
import TraceRelay.Proofs.Json.Lines
import TraceRelay.Proofs.Json.Reader
import TraceRelay.Proofs.Net
import TraceRelay.Proofs.Peer.Grammar
import TraceRelay.Proofs.Peer.Header
import TraceRelay.Proofs.RateLimit
import TraceRelay.Proofs.Recorder.Accounting
import TraceRelay.Proofs.Recorder.Complete
import TraceRelay.Proofs.Recorder.Counted
import TraceRelay.Proofs.Recorder.Ending
import TraceRelay.Proofs.Recorder.Fates
import TraceRelay.Proofs.Recorder.File
import TraceRelay.Proofs.Recorder.Lossless
import TraceRelay.Proofs.Recorder.Overcount
import TraceRelay.Proofs.Recorder.Rounds
import TraceRelay.Proofs.Recorder.Run
import TraceRelay.Proofs.Recorder.Step
import TraceRelay.Proofs.Recorder.Torn
import TraceRelay.Proofs.Source
import TraceRelay.Proofs.Storage
import TraceRelay.Proofs.Tcp.Streams
import TraceRelay.Proofs.Tcp.Switchboard
import TraceRelay.Proofs.Tracer.Fleet
import TraceRelay.Proofs.Tracer.Lineup
import TraceRelay.Proofs.Tracer.Loop
import TraceRelay.Proofs.Tracer.OneStory
import TraceRelay.Proofs.Tracer.Orders
import TraceRelay.Proofs.Tracer.Rehearsal
import TraceRelay.Proofs.Tracer.Shutdown
import TraceRelay.Proofs.Trail
import TraceRelay.Proofs.Wire.RoundTrip
import TraceRelay.RateLimit
import TraceRelay.Real
import TraceRelay.Recorder
import TraceRelay.Recorder.File
import TraceRelay.Source
import TraceRelay.Storage
import TraceRelay.Tally
import TraceRelay.Tcp
import TraceRelay.Tcp.Dialer
import TraceRelay.Tcp.Network
import TraceRelay.Tcp.Switchboard
import TraceRelay.Text.Blank
import TraceRelay.Text.Digits
import TraceRelay.Text.Quoted
import TraceRelay.Text.Shapeless
import TraceRelay.Toml.Decode
import TraceRelay.Toml.Document
import TraceRelay.Toml.Number
import TraceRelay.Toml.Parse
import TraceRelay.Toml.Text
import TraceRelay.Toml.Value
import TraceRelay.Tracer
import TraceRelay.Tracer.Configured
import TraceRelay.Tracer.Failure
import TraceRelay.Tracer.Group
import TraceRelay.Varint
import TraceRelay.Wire
import TraceRelay.WriteBuffer
