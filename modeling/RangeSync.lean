import RangeSync.Act
import RangeSync.ByteSize
import RangeSync.CommandLine.Arguments
import RangeSync.CommandLine.Invocation
import RangeSync.Descriptor.Basic
import RangeSync.Descriptor.Location
import RangeSync.Descriptor.Reader
import RangeSync.Digest.Sha1
import RangeSync.Disk.Basic
import RangeSync.Disk.Kind
import RangeSync.Disk.Tree
import RangeSync.Disk.Walk
import RangeSync.Environment.Basic
import RangeSync.Environment.Guard
import RangeSync.Http.Client
import RangeSync.Http.Net
import RangeSync.Http.Pieces
import RangeSync.Http.Status
import RangeSync.Idna.Composed
import RangeSync.Idna.Mapping
import RangeSync.Idna.Name
import RangeSync.Idna.Property
import RangeSync.Idna.Punycode
import RangeSync.Json.Fault
import RangeSync.Json.Token
import RangeSync.Json.Value
import RangeSync.Log
import RangeSync.LogTarget
import RangeSync.Main
import RangeSync.Numeric.Binary64
import RangeSync.Numeric.Decimal
import RangeSync.Numeric.Fixed
import RangeSync.Numeric.Magnitude
import RangeSync.Numeric.Powers
import RangeSync.Numeric.Shortest
import RangeSync.Output.Destination
import RangeSync.Output.Integrity
import RangeSync.Output.Spool
import RangeSync.Output.Writer
import RangeSync.Path
import RangeSync.Plan.Basic
import RangeSync.Plan.Json
import RangeSync.Planner
import RangeSync.Program
import RangeSync.Progress.Sink
import RangeSync.Progress.Tracker
import RangeSync.Progress.Update
import RangeSync.Proofs.Absolute
import RangeSync.Proofs.Addresses
import RangeSync.Proofs.Authority
import RangeSync.Proofs.Bench
import RangeSync.Proofs.ByteSizes
import RangeSync.Proofs.Bytes
import RangeSync.Proofs.ChunkSizes
import RangeSync.Proofs.Commit
import RangeSync.Proofs.ConsoleLine
import RangeSync.Proofs.Contents
import RangeSync.Proofs.Copy
import RangeSync.Proofs.Counts
import RangeSync.Proofs.Dating
import RangeSync.Proofs.Delivery
import RangeSync.Proofs.Disk
import RangeSync.Proofs.Download
import RangeSync.Proofs.Ending
import RangeSync.Proofs.Fetch
import RangeSync.Proofs.Fill
import RangeSync.Proofs.Finish
import RangeSync.Proofs.Folder
import RangeSync.Proofs.Fractions
import RangeSync.Proofs.Grammar
import RangeSync.Proofs.Guards
import RangeSync.Proofs.HeaderLines
import RangeSync.Proofs.Hosts
import RangeSync.Proofs.InPlace
import RangeSync.Proofs.JsonReaders
import RangeSync.Proofs.Leftover
import RangeSync.Proofs.LineEnds
import RangeSync.Proofs.LocalFiles
import RangeSync.Proofs.Location
import RangeSync.Proofs.Meaning
import RangeSync.Proofs.Names
import RangeSync.Proofs.Nearest
import RangeSync.Proofs.OneEntry
import RangeSync.Proofs.Order
import RangeSync.Proofs.Outside
import RangeSync.Proofs.Overflow
import RangeSync.Proofs.Overrides
import RangeSync.Proofs.Paths
import RangeSync.Proofs.Percentages
import RangeSync.Proofs.PlanReader
import RangeSync.Proofs.PlanText
import RangeSync.Proofs.Printed
import RangeSync.Proofs.Punycode
import RangeSync.Proofs.Ranges
import RangeSync.Proofs.Reach
import RangeSync.Proofs.Requested
import RangeSync.Proofs.Requests
import RangeSync.Proofs.Results
import RangeSync.Proofs.Reuse
import RangeSync.Proofs.RoundTrip
import RangeSync.Proofs.Rounding
import RangeSync.Proofs.Run
import RangeSync.Proofs.Size
import RangeSync.Proofs.SkippedValues
import RangeSync.Proofs.Soundness
import RangeSync.Proofs.Spelling
import RangeSync.Proofs.StepLog
import RangeSync.Proofs.Steps
import RangeSync.Proofs.Success
import RangeSync.Proofs.Sync
import RangeSync.Proofs.Tally
import RangeSync.Proofs.Tape
import RangeSync.Proofs.Totals
import RangeSync.Proofs.Tree
import RangeSync.Proofs.Twin
import RangeSync.Proofs.Undated
import RangeSync.Proofs.UserPaths
import RangeSync.Proofs.Utf8
import RangeSync.Proofs.Verdict
import RangeSync.Proofs.Walk
import RangeSync.Proofs.Writer
import RangeSync.Rebuild.Fault
import RangeSync.Rebuild.Fetch
import RangeSync.Rebuild.Job
import RangeSync.Settings.Groups
import RangeSync.Settings.Policy
import RangeSync.Settings.Value
import RangeSync.Sync.Fault
import RangeSync.Sync.Metadata
import RangeSync.Sync.Task
import RangeSync.Text.Blank
import RangeSync.Text.CodeRanges
import RangeSync.Text.Cut
import RangeSync.Text.Digits
import RangeSync.Text.Hex
import RangeSync.Text.Printable
import RangeSync.Text.Quoted
import RangeSync.Text.Utf8
import RangeSync.Time.Calendar
import RangeSync.Time.MailDate
import RangeSync.Time.Span
import RangeSync.Url.Basic
import RangeSync.Url.Fault
import RangeSync.Url.FilePath
import RangeSync.Url.Host
import RangeSync.Url.Percent
import RangeSync.Url.Reader
import RangeSync.Url.Relative
import RangeSync.Url.Segments
import RangeSync.World
