import Taskdown.Main
import Taskdown.Output.Script
import Taskdown.Proofs.Tracker.Identity
import Taskdown.Source.Anchor
import Taskdown.Source.Coordinates
import Taskdown.Source.Describe
import Taskdown.Source.LineEnding
import Taskdown.Source.Unescape
import Taskdown.Tracker.Registry
import Taskdown.Proofs.Output.Changes
import Taskdown.Proofs.Output.Records
import Taskdown.Proofs.Output.Recording
import Taskdown.Proofs.Document.Arrangement
import Taskdown.Proofs.Source.Showing
import Taskdown.Proofs.Output.Contents
import Taskdown.Proofs.Output.Layout
import Taskdown.Proofs.Document.Building
import Taskdown.Proofs.Document.Walk
import Taskdown.Proofs.Document.Seen
import Taskdown.Proofs.Document.Markers
import Taskdown.Proofs.Document.Tasks
import Taskdown.Proofs.Source.Derivation
import Taskdown.Proofs.Source.Tracing
import Taskdown.Proofs.Tracker.Clearing
import Taskdown.Proofs.Tracker.Itinerary
import Taskdown.Proofs.Tracker.Journey
import Taskdown.Proofs.Tracker.Letting
import Taskdown.Proofs.Source.Coordinates
import Taskdown.Proofs.Document.Correspondence
import Taskdown.Proofs.Document.Bounds
import Taskdown.Proofs.Markup.Regularity
import Taskdown.Proofs.Document.Range
import Taskdown.Proofs.Document.Rereading
import Taskdown.Proofs.Document.Outlines
import Taskdown.Proofs.Document.TasksBelow
import Taskdown.Proofs.Document.Placement
import Taskdown.Proofs.Document.Columns
import Taskdown.Proofs.Output.Fragments
import Taskdown.Proofs.Output.Offsets
import Taskdown.Proofs.Output.Runs
import Taskdown.Proofs.Config.Loading
import Taskdown.Proofs.Source.Escaping
import Taskdown.Proofs.Output.BlankLines
import Taskdown.Proofs.Document.CodeRuns
import Taskdown.Proofs.Source.Merging
import Taskdown.Proofs.Source.Covering
import Taskdown.Proofs.Source.Cutting
import Taskdown.Proofs.Source.LineEnds
import Taskdown.Proofs.Source.Overlapping
import Taskdown.Proofs.Source.Growing
import Taskdown.Proofs.Source.Indenting
import Taskdown.Proofs.Tracker.Copies
import Taskdown.Proofs.Tracker.Accounts
