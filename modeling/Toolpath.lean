import Toolpath.Arc
import Toolpath.Axis
import Toolpath.Block
import Toolpath.Block.Draft
import Toolpath.Bus
import Toolpath.Command
import Toolpath.CommandLine
import Toolpath.CommandLine.Arguments
import Toolpath.Cursor
import Toolpath.Diagnostic
import Toolpath.Event
import Toolpath.Files
import Toolpath.Files.Path
import Toolpath.Job
import Toolpath.Json.Printer
import Toolpath.Json.Reader
import Toolpath.Machine
import Toolpath.Main
import Toolpath.Modal
import Toolpath.Move
import Toolpath.MoveId
import Toolpath.Number.Binary64
import Toolpath.Number.Decimal
import Toolpath.Number.Hypot
import Toolpath.Number.Layout
import Toolpath.Number.Power
import Toolpath.Number.Reading
import Toolpath.Playback
import Toolpath.Program
import Toolpath.Record.Command
import Toolpath.Record.Event
import Toolpath.Record.Move
import Toolpath.Record.Setup
import Toolpath.Report
import Toolpath.Scanner
import Toolpath.Selection
import Toolpath.Session
import Toolpath.Settings
import Toolpath.Setup
import Toolpath.Snapshot
import Toolpath.Text.Blank
import Toolpath.Text.Reader
import Toolpath.Text.Split
import Toolpath.Timeline
import Toolpath.Token
import Toolpath.Toml.Printer
import Toolpath.Toml.Reader
import Toolpath.Toml.Scalar
import Toolpath.Toml.Table
import Toolpath.Value
import Toolpath.Proofs.Job.Lifecycle
import Toolpath.Proofs.Job.Publication
import Toolpath.Proofs.Timeline.Entries
import Toolpath.Proofs.Timeline.Continuation
import Toolpath.Proofs.Machine.Effect
import Toolpath.Proofs.Timeline.Chain
import Toolpath.Proofs.Block.Parts
import Toolpath.Proofs.Timeline.Refusal
import Toolpath.Proofs.Timeline.Insertion
import Toolpath.Proofs.Block.Grouping
import Toolpath.Proofs.Timeline.LoneCode
import Toolpath.Proofs.Job.Reload
import Toolpath.Proofs.Job.Staleness
import Toolpath.Proofs.Job.Announcement
import Toolpath.Proofs.Number.Finite
import Toolpath.Proofs.Block.Range
import Toolpath.Proofs.Machine.Range
import Toolpath.Proofs.Machine.ArcRange
import Toolpath.Proofs.Timeline.Range
import Toolpath.Proofs.Number.Product
import Toolpath.Proofs.Number.Shortest
import Toolpath.Proofs.Json.Numeral
import Toolpath.Proofs.Json.RoundTrip
import Toolpath.Proofs.Record.Written
import Toolpath.Proofs.Timeline.Arcs
import Toolpath.Proofs.Scanner.Steps
import Toolpath.Proofs.Scanner.Blanks
import Toolpath.Proofs.Scanner.Spelling
import Toolpath.Proofs.Scanner.Writing
import Toolpath.Proofs.Block.Edit
import Toolpath.Proofs.Block.Order
import Toolpath.Proofs.Block.Shape
import Toolpath.Proofs.Session.Following
import Toolpath.Proofs.Session.InStep
import Toolpath.Proofs.Bus.PublishTree
import Toolpath.Proofs.Session.Reentrancy
import Toolpath.Proofs.Session.Publishing
import Toolpath.Proofs.Session.NestedOrder
import Toolpath.Proofs.Cursor.System
import Toolpath.Proofs.Block.Skipping
import Toolpath.Proofs.Settings.Overlay
import Toolpath.Proofs.Settings.Storing
import Toolpath.Proofs.Timeline.Attempts
import Toolpath.Proofs.Timeline.Account
import Toolpath.Proofs.Machine.Merge
import Toolpath.Proofs.Machine.Planes
import Toolpath.Proofs.Number.Rounding
import Toolpath.Proofs.Timeline.ModeInForce
import Toolpath.Proofs.Machine.ArcSense
import Toolpath.Proofs.Machine.ArcGrounds
import Toolpath.Proofs.Session.Passive
import Toolpath.Proofs.Session.Seeking
import Toolpath.Proofs.Cursor.Delivery
import Toolpath.Proofs.Session.Playing
import Toolpath.Proofs.Selection.Lookup
import Toolpath.Proofs.Bus.Subscribers
import Toolpath.Proofs.Bus.History
import Toolpath.Proofs.Session.Refusing
import Toolpath.Proofs.Scanner.Coverage
import Toolpath.Proofs.Block.Comment
import Toolpath.Proofs.Timeline.LineEndings
import Toolpath.Proofs.Number.Level
import Toolpath.Proofs.Move.Bounds
