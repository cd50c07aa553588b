import EventRelay.Binary64.Basic
import EventRelay.Binary64.Shortest
import EventRelay.Bytes
import EventRelay.Channel.Assembler
import EventRelay.Channel.Basic
import EventRelay.Channel.Fragment
import EventRelay.Checksum
import EventRelay.Decimal.Basic
import EventRelay.Decimal.Reader
import EventRelay.Disk.Basic
import EventRelay.Disk.Fault
import EventRelay.Event.Basic
import EventRelay.Event.Document
import EventRelay.Event.Encoding
import EventRelay.Frame.Basic
import EventRelay.Frame.Encoding
import EventRelay.Json.Number
import EventRelay.Json.Scanner
import EventRelay.Key.Basic
import EventRelay.Key.Map
import EventRelay.Log.Basic
import EventRelay.Log.Scan
import EventRelay.Log.Store
import EventRelay.Metrics.Basic
import EventRelay.Metrics.Latency
import EventRelay.Mismatch
import EventRelay.Publisher
import EventRelay.Recorder
import EventRelay.Relay.Basic
import EventRelay.Relay.Publishing
import EventRelay.Relay.Shutdown
import EventRelay.Replay
import EventRelay.Replication.Broker
import EventRelay.Replication.Forwarder
import EventRelay.Retry
import EventRelay.Segment.Name
import EventRelay.Segment.Reader
import EventRelay.Segment.Writer
import EventRelay.Settings.Basic
import EventRelay.Settings.Document
import EventRelay.Subscriber
import EventRelay.Text.Hex
import EventRelay.Text.Lossy
import EventRelay.Text.Printable
import EventRelay.Text.Quoted
import EventRelay.Toml.Document
import EventRelay.Toml.Number
import EventRelay.Toml.Scanner
import EventRelay.Toml.Table
import EventRelay.Toml.Text
import EventRelay.Toml.Value
import EventRelay.Word
import EventRelay.Zstandard.BitString
import EventRelay.Zstandard.Block
import EventRelay.Zstandard.CodeLengths
import EventRelay.Zstandard.CodedLiterals
import EventRelay.Zstandard.CodedSequences
import EventRelay.Zstandard.ContentHash
import EventRelay.Zstandard.Encoder
import EventRelay.Zstandard.Fault
import EventRelay.Zstandard.Frame
import EventRelay.Zstandard.Frequencies
import EventRelay.Zstandard.Level
import EventRelay.Zstandard.Literals
import EventRelay.Zstandard.PrefixCode
import EventRelay.Zstandard.Search.Basic
import EventRelay.Zstandard.Search.Chained
import EventRelay.Zstandard.Search.Cover
import EventRelay.Zstandard.Search.Double
import EventRelay.Zstandard.Search.Single
import EventRelay.Zstandard.Sequences
import EventRelay.Zstandard.StateCode
import EventRelay.Proofs.Key.Map
import EventRelay.Proofs.Frame.RoundTrip
import EventRelay.Proofs.Segment.Name
import EventRelay.Proofs.Segment.Reader
import EventRelay.Proofs.Disk
import EventRelay.Proofs.Segment.Writer
import EventRelay.Proofs.Log.Storage
import EventRelay.Proofs.Log.Scan
import EventRelay.Proofs.Log.Opening
import EventRelay.Proofs.Log.Cursor
import EventRelay.Proofs.Log.Layout
import EventRelay.Proofs.Log.Refinement
import EventRelay.Proofs.Log.Recovery
import EventRelay.Proofs.Channel.Delivery
import EventRelay.Proofs.Log.Reopening
import EventRelay.Proofs.Log.Crash
import EventRelay.Proofs.Replay.Coverage
import EventRelay.Proofs.Event.RoundTrip
import EventRelay.Proofs.Log.Accumulation
import EventRelay.Proofs.Replay.Completion
import EventRelay.Proofs.Relay.Forwarding
import EventRelay.Proofs.Relay.Publishing
import EventRelay.Proofs.Relay.Recording
import EventRelay.Proofs.Relay.Service
import EventRelay.Proofs.Relay.RoundTrip
import EventRelay.Proofs.Channel.Fragmentation
import EventRelay.Proofs.Channel.Accounts
import EventRelay.Proofs.Checksum
import EventRelay.Proofs.Event.Decoding
import EventRelay.Proofs.Frame.Decoding
import EventRelay.Proofs.Frame.Damage
import EventRelay.Proofs.Metrics
import EventRelay.Proofs.Channel.Finality
import EventRelay.Proofs.Replication.Accounts
import EventRelay.Proofs.Replication.Worker
import EventRelay.Proofs.Subscriber.Loop
import EventRelay.Proofs.Relay.Books
import EventRelay.Proofs.Relay.Turns
import EventRelay.Proofs.Channel.Retention
import EventRelay.Proofs.Channel.Refusal
import EventRelay.Proofs.Channel.Terms
import EventRelay.Proofs.Frame.Delimiting
import EventRelay.Proofs.Segment.Agreement
import EventRelay.Proofs.Relay.Front
import EventRelay.Proofs.Relay.Isolation
import EventRelay.Proofs.Key.Collision
import EventRelay.Proofs.Key.Time
import EventRelay.Proofs.Retry
import EventRelay.Proofs.Log.Discovery
import EventRelay.Proofs.Segment.Positions
import EventRelay.Proofs.Channel.Readiness
import EventRelay.Proofs.Retry.Schedule
import EventRelay.Proofs.Channel.Sessions
import EventRelay.Proofs.Channel.Sizes
import EventRelay.Proofs.Channel.Losses
import EventRelay.Proofs.Replay.Calls
import EventRelay.Proofs.Channel.Partition
import EventRelay.Proofs.Metrics.Latency
import EventRelay.Proofs.Text.Digits
import EventRelay.Proofs.Decimal.Text
import EventRelay.Proofs.Json.Text
import EventRelay.Proofs.Json.Number
import EventRelay.Proofs.Event.Document
