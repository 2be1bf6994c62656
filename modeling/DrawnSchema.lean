import DrawnSchema.Calendar
import DrawnSchema.Canvas
import DrawnSchema.CommandLine.Arguments
import DrawnSchema.CommandLine.Invocation
import DrawnSchema.CommandLine.Run
import DrawnSchema.Document.Basic
import DrawnSchema.Document.Dump
import DrawnSchema.Document.Field
import DrawnSchema.Document.Names
import DrawnSchema.Document.RawField
import DrawnSchema.Document.Reader
import DrawnSchema.Graph.Basic
import DrawnSchema.Graph.Change
import DrawnSchema.Graph.Edit
import DrawnSchema.Json.Literal
import DrawnSchema.Json.Printer
import DrawnSchema.Json.Reader
import DrawnSchema.Main
import DrawnSchema.Number.Binary64
import DrawnSchema.Number.Shortest
import DrawnSchema.Reading
import DrawnSchema.Relation.EnumEdges
import DrawnSchema.Relation.Synthesis
import DrawnSchema.Report.Basic
import DrawnSchema.Report.Checks
import DrawnSchema.Schema.Block
import DrawnSchema.Schema.Generation
import DrawnSchema.Schema.Rendering
import DrawnSchema.Snapshot.FileTree
import DrawnSchema.Snapshot.Load
import DrawnSchema.Text.Case
import DrawnSchema.Text.CaseTable
import DrawnSchema.Text.DecimalTable
import DrawnSchema.Text.Digits
import DrawnSchema.Text.HiddenTable
import DrawnSchema.Text.Quoted
import DrawnSchema.Text.Surrogate
import DrawnSchema.Value
import DrawnSchema.Value.Text
import DrawnSchema.Yaml.Base64
import DrawnSchema.Yaml.Cursor
import DrawnSchema.Yaml.Error
import DrawnSchema.Yaml.Lexer
import DrawnSchema.Yaml.Node
import DrawnSchema.Yaml.Reader
import DrawnSchema.Yaml.ScalarText
import DrawnSchema.Yaml.Source
import DrawnSchema.Yaml.Tag
import DrawnSchema.Yaml.Timestamp
import DrawnSchema.Yaml.Token
import DrawnSchema.Proofs.Graph.Frame
import DrawnSchema.Proofs.Editing.Atomicity
import DrawnSchema.Proofs.Relation.Demand
import DrawnSchema.Proofs.Relation.Additions
import DrawnSchema.Proofs.Relation.EnumEdges
import DrawnSchema.Proofs.Relation.DerivedIds
import DrawnSchema.Proofs.Relation.Idempotence
import DrawnSchema.Proofs.Relation.Presence
import DrawnSchema.Proofs.Report.Prediction
import DrawnSchema.Proofs.Document.Names
import DrawnSchema.Proofs.Document.SharedNames
import DrawnSchema.Proofs.Document.Reading
import DrawnSchema.Proofs.Graph.Sound
import DrawnSchema.Proofs.Editing.Invariant
import DrawnSchema.Proofs.Value.Record
import DrawnSchema.Proofs.Document.Dump
import DrawnSchema.Proofs.Document.RoundTrip
import DrawnSchema.Proofs.Graph.EnumEdges
import DrawnSchema.Proofs.Graph.Hydration
import DrawnSchema.Proofs.Graph.Synthesis
import DrawnSchema.Proofs.Schema.Generation
import DrawnSchema.Proofs.Editing.Synthesis
import DrawnSchema.Proofs.Editing.Drawing
import DrawnSchema.Proofs.Text.Digits
import DrawnSchema.Proofs.Number.Rounding
import DrawnSchema.Proofs.Number.Shortest
import DrawnSchema.Proofs.Editing.Transitions
import DrawnSchema.Proofs.Graph.Arcs
import DrawnSchema.Proofs.Editing.EnumIndex
import DrawnSchema.Proofs.Editing.RelationIndex
import DrawnSchema.Proofs.Editing.EnumOrder
import DrawnSchema.Proofs.Graph.Twin
import DrawnSchema.Proofs.Editing.Alike
import DrawnSchema.Proofs.Editing.Reopening
import DrawnSchema.Proofs.Editing.Retyping
import DrawnSchema.Proofs.Graph.RepeatedIds
import DrawnSchema.Proofs.Graph.Synthesized
import DrawnSchema.Proofs.Editing.Stability
import DrawnSchema.Proofs.Text.Surrogate
import DrawnSchema.Proofs.Text.Lines
import DrawnSchema.Proofs.Schema.Frame
import DrawnSchema.Proofs.Schema.OneLine
import DrawnSchema.Proofs.Schema.Outline
import DrawnSchema.Proofs.Snapshot.FileTree
import DrawnSchema.Proofs.CommandLine.Printing
import DrawnSchema.Proofs.CommandLine.Generation
import DrawnSchema.Proofs.CommandLine.AllOrNothing
import DrawnSchema.Proofs.Json.Numbers
import DrawnSchema.Proofs.Json.Texts
import DrawnSchema.Proofs.Json.Structure
import DrawnSchema.Proofs.Snapshot.Printed
import DrawnSchema.Proofs.Document.Rereading
import DrawnSchema.Proofs.CommandLine.FixedPoint
import DrawnSchema.Proofs.Graph.Relatedness
import DrawnSchema.Proofs.Relation.Provenance
import DrawnSchema.Proofs.Relation.Relabeling
import DrawnSchema.Proofs.Schema.Relabeling
import DrawnSchema.Proofs.Report.Synthesized
import DrawnSchema.Proofs.Schema.ClosedTypes
import DrawnSchema.Proofs.Relation.Accounts
import DrawnSchema.Proofs.Relation.EdgeOrder
import DrawnSchema.Proofs.Document.Classification
import DrawnSchema.Proofs.Document.Attributes
import DrawnSchema.Proofs.Editing.FieldUpdate
import DrawnSchema.Proofs.Relation.References
import DrawnSchema.Proofs.Relation.Uncluttered
import DrawnSchema.Proofs.Document.NameGate
import DrawnSchema.Proofs.Editing.Withdrawal
import DrawnSchema.Proofs.Editing.RetypingFrame
import DrawnSchema.Proofs.Graph.Renaming
import DrawnSchema.Proofs.Editing.DistinctNames
import DrawnSchema.Proofs.Editing.Renaming
import DrawnSchema.Proofs.Document.FreeNames
import DrawnSchema.Proofs.Document.Normalization
import DrawnSchema.Proofs.Document.NestedRelation
import DrawnSchema.Proofs.Document.Records
import DrawnSchema.Proofs.Document.FieldKinds
import DrawnSchema.Proofs.Report.Orphans
import DrawnSchema.Proofs.Schema.Literals
import DrawnSchema.Proofs.Document.Complaints
import DrawnSchema.Proofs.Document.Spelling
import DrawnSchema.Proofs.Document.Respelling
import DrawnSchema.Proofs.Document.Matching
import DrawnSchema.Proofs.Document.Canvas
