import CycleTrace.Command
import CycleTrace.Command.Json
import CycleTrace.Command.Line
import CycleTrace.Fault
import CycleTrace.Inspection.CommandLine
import CycleTrace.Inspection.FileSize
import CycleTrace.Inspection.Listing
import CycleTrace.Inspection.Summary
import CycleTrace.Inspection.Timestamp
import CycleTrace.Inspection.TraceFile
import CycleTrace.Limits
import CycleTrace.Lz4.Block
import CycleTrace.Lz4.Checksum
import CycleTrace.Lz4.Codec
import CycleTrace.Lz4.Defect
import CycleTrace.Lz4.Frame
import CycleTrace.Lz4.Ring
import CycleTrace.Lz4.StoredBlocks
import CycleTrace.Main
import CycleTrace.Output.Directory
import CycleTrace.Output.Encoder
import CycleTrace.Output.Writer
import CycleTrace.Proofs.Command.Fields
import CycleTrace.Proofs.Command.Line
import CycleTrace.Proofs.Lz4.Codec
import CycleTrace.Proofs.Lz4.Frame
import CycleTrace.Proofs.Output.Buffering
import CycleTrace.Proofs.Output.Decoding
import CycleTrace.Proofs.Output.Definitions
import CycleTrace.Proofs.Output.Emission
import CycleTrace.Proofs.Output.Encoder
import CycleTrace.Proofs.Output.Lines
import CycleTrace.Proofs.Output.Moments
import CycleTrace.Proofs.Output.Neighbors
import CycleTrace.Proofs.Output.Reencoding
import CycleTrace.Proofs.Output.Restarts
import CycleTrace.Proofs.Output.RoundTrip
import CycleTrace.Proofs.Output.Spelling
import CycleTrace.Proofs.Output.TextFiles
import CycleTrace.Proofs.Output.Unopened
import CycleTrace.Proofs.Output.Writer
import CycleTrace.Proofs.Recording.Acceptance
import CycleTrace.Proofs.Recording.Accounts
import CycleTrace.Proofs.Recording.Archives
import CycleTrace.Proofs.Recording.Calls
import CycleTrace.Proofs.Recording.ClockedCycles
import CycleTrace.Proofs.Recording.Departures
import CycleTrace.Proofs.Recording.Dispatching
import CycleTrace.Proofs.Recording.Files
import CycleTrace.Proofs.Recording.Framing
import CycleTrace.Proofs.Recording.FreshOutput
import CycleTrace.Proofs.Recording.Generations
import CycleTrace.Proofs.Recording.History
import CycleTrace.Proofs.Recording.Identifiers
import CycleTrace.Proofs.Recording.Instances
import CycleTrace.Proofs.Recording.KnownStructure
import CycleTrace.Proofs.Recording.LiveItems
import CycleTrace.Proofs.Recording.Permitted
import CycleTrace.Proofs.Recording.Persistence
import CycleTrace.Proofs.Recording.Plans
import CycleTrace.Proofs.Recording.References
import CycleTrace.Proofs.Recording.Refusals
import CycleTrace.Proofs.Recording.RepeatedTags
import CycleTrace.Proofs.Recording.Reports
import CycleTrace.Proofs.Recording.RequestedExits
import CycleTrace.Proofs.Recording.Runs
import CycleTrace.Proofs.Recording.Silence
import CycleTrace.Proofs.Recording.Slots
import CycleTrace.Proofs.Recording.Steps
import CycleTrace.Proofs.Recording.Switching
import CycleTrace.Proofs.Recording.Tags
import CycleTrace.Proofs.Recording.Tallies
import CycleTrace.Proofs.Recording.TextAndBinary
import CycleTrace.Proofs.Recording.Twins
import CycleTrace.Proofs.Recording.Visits
import CycleTrace.Proofs.Recording.WatchedNodes
import CycleTrace.Proofs.Recording.Watching
import CycleTrace.Proofs.Recording.WholeNodeTags
import CycleTrace.Proofs.Recording.Windows
import CycleTrace.Proofs.Structure.Growth
import CycleTrace.Proofs.Structure.Identifiers
import CycleTrace.Proofs.Structure.Indexing
import CycleTrace.Proofs.Structure.Layout
import CycleTrace.Proofs.Structure.Topology
import CycleTrace.Proofs.Wire.Commands
import CycleTrace.Proofs.Wire.Cuts
import CycleTrace.Proofs.Wire.Differences
import CycleTrace.Proofs.Wire.Fields
import CycleTrace.Proofs.Wire.LastUses
import CycleTrace.Proofs.Wire.Links
import CycleTrace.Proofs.Wire.Numbers
import CycleTrace.Proofs.Wire.Readings
import CycleTrace.Proofs.Wire.Recency
import CycleTrace.Proofs.Wire.RecencyList
import CycleTrace.Proofs.Wire.Streams
import CycleTrace.Recording.Dispatching
import CycleTrace.Recording.Event
import CycleTrace.Recording.Machine
import CycleTrace.Recording.Occupancy
import CycleTrace.Recording.Recorder
import CycleTrace.Recording.ReplayStore
import CycleTrace.Recording.Reports
import CycleTrace.Recording.Settings
import CycleTrace.Recording.TagMemory
import CycleTrace.Recording.Tally
import CycleTrace.Recording.Traffic
import CycleTrace.Structure.Declaration
import CycleTrace.Structure.InstanceNumbers
import CycleTrace.Structure.Layout
import CycleTrace.Structure.Topology
import CycleTrace.Tag
import CycleTrace.Text.Blank
import CycleTrace.Text.Json
import CycleTrace.Text.JsonReader
import CycleTrace.Text.Numeral
import CycleTrace.Text.Quoted
import CycleTrace.Text.Visible
import CycleTrace.Wire.Body
import CycleTrace.Wire.Bytes
import CycleTrace.Wire.Code
import CycleTrace.Wire.Decoder
import CycleTrace.Wire.LastIds
import CycleTrace.Wire.RecencyTable
import CycleTrace.Wire.Width
