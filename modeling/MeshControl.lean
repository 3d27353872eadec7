import MeshControl.Board.Link
import MeshControl.Board.Memory
import MeshControl.Board.State
import MeshControl.Boot.Message
import MeshControl.Config
import MeshControl.Core.State
import MeshControl.Core.Subset
import MeshControl.Duration
import MeshControl.Error
import MeshControl.Flood.Block
import MeshControl.Flood.Transfer
import MeshControl.Link.Connection
import MeshControl.Link.Dispatcher
import MeshControl.Link.Group
import MeshControl.Link.Hub
import MeshControl.Link.Junction
import MeshControl.Link.Process
import MeshControl.Link.Script
import MeshControl.Link.Selector
import MeshControl.Link.Station
import MeshControl.Link.Transcript
import MeshControl.Link.Window
import MeshControl.Locks
import MeshControl.Machine.Chip
import MeshControl.Machine.Topology
import MeshControl.Main
import MeshControl.Net.Address
import MeshControl.Net.Channel
import MeshControl.Net.Socket
import MeshControl.Operation.Application
import MeshControl.Operation.FloodFill
import MeshControl.Operation.Memory
import MeshControl.Operation.Version
import MeshControl.Probe.Options
import MeshControl.Probe.Run
import MeshControl.Proofs.Link.Move
import MeshControl.Proofs.Link.Release
import MeshControl.Proofs.Link.Routing
import MeshControl.Proofs.Table.Contents
import MeshControl.Router.Filter
import MeshControl.Scp.Code
import MeshControl.Scp.Request
import MeshControl.Scp.Response
import MeshControl.Scp.Sequence
import MeshControl.Sdp.Header
import MeshControl.Session
import MeshControl.Statistics
import MeshControl.Table
import MeshControl.Text.Decimal
import MeshControl.Text.Hexadecimal
import MeshControl.Text.Numeral
import MeshControl.Text.Quoted
import MeshControl.Text.Utf8
import MeshControl.VirtualBoard.Options
import MeshControl.Wire.Word
import MeshControl.Proofs.Link.Settlement
import MeshControl.Proofs.Link.Acceptance
import MeshControl.Proofs.Link.Chronicle
import MeshControl.Proofs.Link.Seating
import MeshControl.Proofs.Link.Turn
import MeshControl.Proofs.Link.Delivery
import MeshControl.Proofs.Link.Completion
import MeshControl.Proofs.Link.Retry
import MeshControl.Proofs.Link.Passage
import MeshControl.Proofs.Link.Batch
import MeshControl.Proofs.Link.Crosstalk
import MeshControl.Proofs.Locks.Exclusion
import MeshControl.Proofs.Scp.Codec
import MeshControl.Proofs.Flood.Blocks
import MeshControl.Proofs.Flood.Delivery
import MeshControl.Proofs.Flood.Protocol
import MeshControl.Proofs.Link.Readers
import MeshControl.Proofs.Board.Flooding
import MeshControl.Proofs.Board.Calls
import MeshControl.Proofs.Link.Termination
import MeshControl.Proofs.Link.Career
import MeshControl.Proofs.Link.Budget
import MeshControl.Proofs.Link.Concern
import MeshControl.Proofs.Session.Launch
import MeshControl.Proofs.Locks.Alone
import MeshControl.Proofs.Link.Lending
import MeshControl.Proofs.Link.Steadiness
import MeshControl.Proofs.Link.Shortage
import MeshControl.Proofs.Session.Rest
import MeshControl.Proofs.Board.Cores
import MeshControl.Proofs.Board.Retransmission
import MeshControl.Proofs.Board.Counting
import MeshControl.Proofs.Link.Allotment
import MeshControl.Proofs.Link.Noise
import MeshControl.Proofs.Scp.Canonical
import MeshControl.Proofs.Flood.Streaming
import MeshControl.Proofs.Link.FirstFailure
import MeshControl.Proofs.Session.Verdict
import MeshControl.Proofs.Board.Assembly
import MeshControl.Proofs.Link.Attempts
import MeshControl.Proofs.Link.Census
import MeshControl.Proofs.Scp.Correlation
import MeshControl.Proofs.Link.Occupancy
import MeshControl.Proofs.Link.Withdrawal
import MeshControl.Proofs.Link.Row
import MeshControl.Proofs.Session.Reading
import MeshControl.Proofs.Link.Evidence
import MeshControl.Proofs.Machine.Boards
import MeshControl.Proofs.Flood.Sizes
import MeshControl.Proofs.Session.Limits
import MeshControl.Proofs.Session.Tally
import MeshControl.Proofs.Board.ChipFlood
import MeshControl.Proofs.Flood.Splitting
import MeshControl.Proofs.Board.FlatMemory
import MeshControl.Proofs.Core.Subsets
import MeshControl.Proofs.Link.Choice
import MeshControl.Proofs.Operation.VersionRecord
import MeshControl.Proofs.Net.Listening
import MeshControl.Proofs.Router.Fields
import MeshControl.Proofs.Boot.Codec
import MeshControl.Proofs.Statistics.RoundTrips
import MeshControl.Proofs.Probe.Reordering
