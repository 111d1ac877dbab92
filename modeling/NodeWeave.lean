import NodeWeave.Bounds
import NodeWeave.Catalog.Basic
import NodeWeave.Catalog.File
import NodeWeave.Catalog.Merge
import NodeWeave.Catalog.NodeType
import NodeWeave.Catalog.Style
import NodeWeave.CommandLine.Arguments
import NodeWeave.CommandLine.Run
import NodeWeave.Document.Entry
import NodeWeave.Document.Export
import NodeWeave.Document.Load
import NodeWeave.Document.Outline
import NodeWeave.Editor
import NodeWeave.Fault
import NodeWeave.FileTree
import NodeWeave.Graph.Basic
import NodeWeave.Graph.Recorded
import NodeWeave.Graph.Wiring
import NodeWeave.Json.Bytes
import NodeWeave.Json.Reader
import NodeWeave.Json.Writer
import NodeWeave.Main
import NodeWeave.Moment
import NodeWeave.Nesting
import NodeWeave.Node
import NodeWeave.Notice
import NodeWeave.Number
import NodeWeave.Number.Binary64
import NodeWeave.Number.Integer
import NodeWeave.Number.Shortest
import NodeWeave.Port
import NodeWeave.Program.Expression
import NodeWeave.Program.Statement
import NodeWeave.Proofs.Lookup
import NodeWeave.Proofs.NodeShape
import NodeWeave.Proofs.Numbering
import NodeWeave.Proofs.Repair
import NodeWeave.Proofs.Replay
import NodeWeave.Proofs.WellFormed
import NodeWeave.Service.Address
import NodeWeave.Service.Field
import NodeWeave.Service.Handler
import NodeWeave.Service.Request
import NodeWeave.Settings
import NodeWeave.Settings.EnvFile
import NodeWeave.Table
import NodeWeave.Template
import NodeWeave.Text.Digit
import NodeWeave.Text.Point
import NodeWeave.Text.Printable
import NodeWeave.Text.Upper
import NodeWeave.Text.Utf8
import NodeWeave.Value
import NodeWeave.Value.Arithmetic
import NodeWeave.Value.Depth
import NodeWeave.Value.Display
import NodeWeave.Value.Equality
import NodeWeave.Value.ScalarSet
import NodeWeave.Value.Writable
import NodeWeave.Proofs.Loading
import NodeWeave.Proofs.EditorRun
import NodeWeave.Proofs.ProgramSight
import NodeWeave.Proofs.Restore
import NodeWeave.Proofs.RoundTrip
import NodeWeave.Proofs.DataCycle
import NodeWeave.Proofs.ControlFlow
import NodeWeave.Proofs.MergeOutcome
import NodeWeave.Proofs.LoadOutcome
import NodeWeave.Proofs.FailedEdit
import NodeWeave.Proofs.RefusedRequest
import NodeWeave.Proofs.LinkRules
import NodeWeave.Proofs.MergedTypes
import NodeWeave.Proofs.NodeSync
import NodeWeave.Proofs.Entries
import NodeWeave.Proofs.QuietMerge
import NodeWeave.Proofs.LoadAccount
import NodeWeave.Proofs.DollarSigns
import NodeWeave.Proofs.ProgramSteps
import NodeWeave.Proofs.ProgramText
import NodeWeave.Proofs.PlaceholderFree
import NodeWeave.Proofs.ClosedText
import NodeWeave.Proofs.LiteralValue
import NodeWeave.Proofs.DepthLimit
import NodeWeave.Proofs.LinkOrder
import NodeWeave.Proofs.CyclePath
import NodeWeave.Proofs.Headroom
import NodeWeave.Proofs.ProgramEnds
import NodeWeave.Proofs.Filing
import NodeWeave.Proofs.ReadValues
import NodeWeave.Proofs.MergeOverlay
import NodeWeave.Proofs.RepeatedMerge
import NodeWeave.Proofs.AutoConnect
import NodeWeave.Proofs.FreshIds
import NodeWeave.Proofs.IndentedText
import NodeWeave.Proofs.ExecChain
import NodeWeave.Proofs.Cone
import NodeWeave.Proofs.OutputTemplate
import NodeWeave.Proofs.NodeRemoval
import NodeWeave.Proofs.HalfFree
import NodeWeave.Proofs.DocumentTexts
import NodeWeave.Proofs.FileWriting
import NodeWeave.Proofs.RunOutcome
import NodeWeave.Proofs.SplicedPieces
import NodeWeave.Proofs.HitTest
import NodeWeave.Proofs.Calendar
import NodeWeave.Proofs.TimestampText
