import RemoteSlots.Addressing
import RemoteSlots.Benchmark.Rate
import RemoteSlots.Checksum.Crc32
import RemoteSlots.Config
import RemoteSlots.Console.Arguments
import RemoteSlots.Console.Collector
import RemoteSlots.Console.Program
import RemoteSlots.Console.Report
import RemoteSlots.Console.Synthetic
import RemoteSlots.Fabric.Completion
import RemoteSlots.Fabric.Event
import RemoteSlots.Fabric.Loopback.Basic
import RemoteSlots.Fabric.Loopback.Peer
import RemoteSlots.Fabric.Loopback.Server
import RemoteSlots.Fabric.Psn
import RemoteSlots.Fabric.Request
import RemoteSlots.Fabric.Script
import RemoteSlots.Failure.Basic
import RemoteSlots.Failure.SystemError
import RemoteSlots.Main
import RemoteSlots.Memory.Basic
import RemoteSlots.Memory.Block
import RemoteSlots.Memory.Mapper
import RemoteSlots.Memory.Pages
import RemoteSlots.Metadata
import RemoteSlots.Scan.Analysis
import RemoteSlots.Scan.Gap
import RemoteSlots.Scan.Span
import RemoteSlots.Session.Basic
import RemoteSlots.Session.Move
import RemoteSlots.Session.Stage
import RemoteSlots.Session.State
import RemoteSlots.Slot.Basic
import RemoteSlots.Slot.Storage
import RemoteSlots.Slot.Text
import RemoteSlots.Store.Basic
import RemoteSlots.Store.Cursor
import RemoteSlots.Store.Initiation
import RemoteSlots.Store.Lookup
import RemoteSlots.Text.Duration
import RemoteSlots.Text.Fixed
import RemoteSlots.Text.Numeral
import RemoteSlots.Word
import RemoteSlots.World.Basic
import RemoteSlots.World.Peers
import RemoteSlots.World.Quiet
import RemoteSlots.World.Sessions
import RemoteSlots.World.Stores
import RemoteSlots.Proofs.Store.Redundancy
import RemoteSlots.Proofs.Store.Unoccupied
import RemoteSlots.Proofs.Initiation.Failure
import RemoteSlots.Proofs.Initiation.Handshake
import RemoteSlots.Proofs.Initiation.Update
import RemoteSlots.Proofs.Initiation.Once
import RemoteSlots.Proofs.Session.Advertisement
import RemoteSlots.Proofs.World.HangUp
import RemoteSlots.Proofs.World.Isolation
import RemoteSlots.Proofs.Store.AppendLog
import RemoteSlots.Proofs.World.SlotAccess
import RemoteSlots.Proofs.World.CompletionQueue
import RemoteSlots.Proofs.Initiation.Retry
import RemoteSlots.Proofs.Store.LosslessLog
import RemoteSlots.Proofs.Initiation.Cancellation
import RemoteSlots.Proofs.World.Drift
import RemoteSlots.Proofs.Scan.Laps
import RemoteSlots.Proofs.Slot.Contents
import RemoteSlots.Proofs.World.Events
import RemoteSlots.Proofs.World.GoneServer
import RemoteSlots.Proofs.Scan.EmptyRuns
import RemoteSlots.Proofs.Session.Wiping
import RemoteSlots.Proofs.Initiation.Breakage
import RemoteSlots.Proofs.World.OneSided
import RemoteSlots.Proofs.Session.Hearing
import RemoteSlots.Proofs.Store.Cursors
import RemoteSlots.Proofs.World.Delivery
import RemoteSlots.Proofs.Store.QueryBenchmark
import RemoteSlots.Proofs.Scan.Gaps
import RemoteSlots.Proofs.Slot.Views
import RemoteSlots.Proofs.Console.Report
import RemoteSlots.Proofs.Slot.Allocation
import RemoteSlots.Proofs.Session.Conveyance
import RemoteSlots.Proofs.World.Mappings
