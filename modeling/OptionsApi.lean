import OptionsApi.Batch
import OptionsApi.CommandLine.Arguments
import OptionsApi.CommandLine.Registry
import OptionsApi.CommandLine.Run
import OptionsApi.Component.Basic
import OptionsApi.Component.Error
import OptionsApi.Document.Basic
import OptionsApi.Document.Convert
import OptionsApi.Document.Workspace
import OptionsApi.Failure
import OptionsApi.File.Path
import OptionsApi.File.Store
import OptionsApi.Import.Clause
import OptionsApi.Import.Ensure
import OptionsApi.Import.Statement
import OptionsApi.Journal
import OptionsApi.Layout.Format
import OptionsApi.Layout.Indent
import OptionsApi.Layout.Regex
import OptionsApi.Layout.Scan
import OptionsApi.Main
import OptionsApi.OptionsObject.Assemble
import OptionsApi.OptionsObject.Computed
import OptionsApi.OptionsObject.Data
import OptionsApi.OptionsObject.Documentation
import OptionsApi.OptionsObject.Prop
import OptionsApi.OptionsObject.Settings
import OptionsApi.Proofs.Layout.Nesting
import OptionsApi.Proofs.Text.Lines
import OptionsApi.Proofs.Text.Trim
import OptionsApi.Text.Basic
import OptionsApi.Text.Blank
import OptionsApi.Text.ControlSequence
import OptionsApi.Text.DecimalDigit
import OptionsApi.Text.Integer
import OptionsApi.Text.Printable
import OptionsApi.Text.Quoted
import OptionsApi.Text.Ranges
import OptionsApi.Text.Utf8
import OptionsApi.Text.Word
import OptionsApi.Text.WordChar
import OptionsApi.Tree.Basic
import OptionsApi.Tree.Print
import OptionsApi.Tree.Render
import OptionsApi.Tree.StringLiteral
import OptionsApi.TypeText.Callable
import OptionsApi.TypeText.Chunk
import OptionsApi.TypeText.Literal
import OptionsApi.TypeText.Marker
import OptionsApi.TypeText.Parens
import OptionsApi.Proofs.Layout.Absorption
import OptionsApi.Proofs.Effect
import OptionsApi.Proofs.OptionsObject.Shape
import OptionsApi.Proofs.Document.Atomicity
import OptionsApi.Proofs.Layout.Kept
import OptionsApi.Proofs.OptionsObject.DataCast
import OptionsApi.Proofs.OptionsObject.Emitted
import OptionsApi.Proofs.Import.Clauses
import OptionsApi.Proofs.Import.Reading
import OptionsApi.Proofs.Import.Pieces
import OptionsApi.Proofs.Import.Addition
import OptionsApi.Proofs.Import.Merged
import OptionsApi.Proofs.Import.Distinct
import OptionsApi.Proofs.Import.Outcome
import OptionsApi.Proofs.Import.Rescan
import OptionsApi.Proofs.Import.Untouched
import OptionsApi.Proofs.Layout.TemplateContents
import OptionsApi.Proofs.Expression.Cast
import OptionsApi.Proofs.File.Store
import OptionsApi.Proofs.Document.SourcePath
import OptionsApi.Proofs.Batch.Steps
import OptionsApi.Proofs.Text.Utf8
import OptionsApi.Proofs.Batch.Containment
import OptionsApi.Proofs.Batch.Pointwise
import OptionsApi.Proofs.Batch.DryRun
import OptionsApi.Proofs.Document.KeptLines
import OptionsApi.Proofs.Layout.Literals
import OptionsApi.Proofs.Layout.Exchange
import OptionsApi.Proofs.TypeText.Balanced
import OptionsApi.Proofs.TypeText.Grammar
import OptionsApi.Proofs.TypeText.FunctionTypes
import OptionsApi.Proofs.TypeText.CallSignatures
import OptionsApi.Proofs.Import.Found
import OptionsApi.Proofs.Layout.Sweep
import OptionsApi.Proofs.Import.Live
import OptionsApi.Proofs.TypeText.StringLiterals
import OptionsApi.Proofs.OptionsObject.Contract
import OptionsApi.Proofs.OptionsObject.Outcome
import OptionsApi.Proofs.OptionsObject.Violations
import OptionsApi.Proofs.OptionsObject.Correspondence
import OptionsApi.Proofs.Document.Diagnostics
import OptionsApi.Proofs.Layout.Embedding
import OptionsApi.Proofs.Layout.NormalForm
import OptionsApi.Proofs.Tree.Quoting
import OptionsApi.Proofs.Tree.WellPlaced
import OptionsApi.Proofs.Layout.Climbing
import OptionsApi.Proofs.Layout.RegexEnd
import OptionsApi.Proofs.TypeText.Splitting
import OptionsApi.Proofs.TypeText.Wrapping
