import Kanta.Accepts
import Kanta.Ahead
import Kanta.Append
import Kanta.ApplyCongr
import Kanta.ApplyLemmas
import Kanta.Archive
import Kanta.Cadence
import Kanta.Callbacks
import Kanta.Changelog
import Kanta.Cli
import Kanta.Close
import Kanta.Colored
import Kanta.Control
import Kanta.Crash
import Kanta.Cutoff
import Kanta.Diff
import Kanta.DiffShape
import Kanta.Durable
import Kanta.Entering
import Kanta.Entries
import Kanta.Errors
import Kanta.Evaluate
import Kanta.Framing
import Kanta.Frontier
import Kanta.Frozen
import Kanta.Grep
import Kanta.History
import Kanta.Injection
import Kanta.Instance
import Kanta.Language
import Kanta.Layout
import Kanta.Lib.Agree
import Kanta.Lib.Ansi
import Kanta.Lib.Assoc
import Kanta.Lib.Descriptors
import Kanta.Lib.Disk
import Kanta.Lib.Drain
import Kanta.Lib.Fresh
import Kanta.Lib.Gather
import Kanta.Lib.Lts
import Kanta.Lib.Positional
import Kanta.Lib.Raises
import Kanta.Lib.Script
import Kanta.Lib.Search
import Kanta.Lib.Sgr
import Kanta.Lib.Signature
import Kanta.Lib.Sorted
import Kanta.Lib.Tree
import Kanta.Life
import Kanta.Lines
import Kanta.ListEdits
import Kanta.Located
import Kanta.Log
import Kanta.Marks
import Kanta.Memory
import Kanta.Migrations
import Kanta.Opening
import Kanta.Outside
import Kanta.Overlap
import Kanta.Patch
import Kanta.Persistence
import Kanta.Placement
import Kanta.Planner
import Kanta.Printing
import Kanta.Processes
import Kanta.PyInt
import Kanta.Queue
import Kanta.Ranges
import Kanta.Readers
import Kanta.Reapply
import Kanta.Refusals
import Kanta.Release
import Kanta.Rendering
import Kanta.Replay
import Kanta.Replaylog
import Kanta.Returns
import Kanta.Rotated
import Kanta.Rotation
import Kanta.RoundTrip
import Kanta.Select
import Kanta.Stamps
import Kanta.StateDiff
import Kanta.Steps
import Kanta.Structs
import Kanta.System
import Kanta.Torn
import Kanta.Transaction
import Kanta.Tty
import Kanta.Turns
import Kanta.Value
import Kanta.Versions
import Kanta.Writes
