import BslLint.Analysis
import BslLint.Call.Registry
import BslLint.Call.Replace
import BslLint.Call.Site
import BslLint.Cancellation
import BslLint.CommandLine.Arguments
import BslLint.CommandLine.FileTree
import BslLint.CommandLine.Path
import BslLint.CommandLine.Report
import BslLint.CommandLine.Run
import BslLint.Config
import BslLint.Decimal
import BslLint.Diff
import BslLint.Edit.Basic
import BslLint.Environment.Basic
import BslLint.Environment.Condition
import BslLint.Environment.Condition.Parse
import BslLint.Environment.Directive
import BslLint.Extension
import BslLint.Fault
import BslLint.Guard
import BslLint.Json.Basic
import BslLint.Json.Reader
import BslLint.Json.Record
import BslLint.Json.Writer
import BslLint.Lint.Context
import BslLint.Lint.Descriptor
import BslLint.Lint.Diagnostic
import BslLint.Lint.Engine
import BslLint.Lint.Fix
import BslLint.Lint.LinkSpacing
import BslLint.Lint.Rules.DynamicCode
import BslLint.Lint.Rules.ExtensionMode
import BslLint.Lint.Rules.LinkSpacing
import BslLint.Lint.Rules.Modality
import BslLint.Lint.Settings
import BslLint.Main
import BslLint.Outcome
import BslLint.Outline.Declaration
import BslLint.Outline.Expression
import BslLint.Outline.Item
import BslLint.Outline.Program
import BslLint.Outline.Search
import BslLint.Outline.Statement
import BslLint.Project
import BslLint.Proofs.Call.Replacement
import BslLint.Proofs.Edit.Order
import BslLint.Proofs.Edit.Splice
import BslLint.Proofs.Edit.Validity
import BslLint.Proofs.Lint.LinkSpacing
import BslLint.Proofs.Located
import BslLint.Proofs.Outcome
import BslLint.Proofs.Syntax.Spans
import BslLint.Proofs.Text.Slice
import BslLint.Proofs.Text.Word
import BslLint.Scope
import BslLint.Snapshot.Condition
import BslLint.Snapshot.Expression
import BslLint.Snapshot.Module
import BslLint.Snapshot.Project
import BslLint.Snapshot.Statement
import BslLint.Span
import BslLint.Spelling
import BslLint.Syntax.Expression
import BslLint.Syntax.Module
import BslLint.Syntax.Statement
import BslLint.Syntax.Walk
import BslLint.Text.Alphabetic
import BslLint.Text.Basic
import BslLint.Text.Blank
import BslLint.Text.Cased
import BslLint.Text.Lines
import BslLint.Text.Lowercase
import BslLint.Text.Numeric
import BslLint.Text.Position
import BslLint.Text.Ranges
import BslLint.Text.Word
import BslLint.Toml.Basic
import BslLint.Toml.Reader
import BslLint.Toml.Scalar
import BslLint.Toml.Sound
import BslLint.Proofs.Lint.Placement
import BslLint.Proofs.Lint.Findings
import BslLint.Proofs.Lint.DynamicCode
import BslLint.Proofs.Lint.Modality
import BslLint.Proofs.Lint.ExtensionMode
import BslLint.Proofs.Lint.Cancellation
import BslLint.Proofs.Syntax.Traversals
import BslLint.Proofs.Syntax.ReadingOrder
import BslLint.Proofs.Lint.ReadingOrder
import BslLint.Proofs.Lint.WrapFix
import BslLint.Proofs.Json.Record
import BslLint.Proofs.Snapshot.Expression
import BslLint.Proofs.Snapshot.Statement
import BslLint.Proofs.Snapshot.RoundTrip
import BslLint.Proofs.Text.Character
import BslLint.Proofs.Condition.Tokens
import BslLint.Proofs.Condition.Grammar
import BslLint.Proofs.Condition.Print
import BslLint.Proofs.Outline.Search
import BslLint.Proofs.Outline.Soundness
import BslLint.Proofs.Outline.Declaration
import BslLint.Proofs.Outline.Operations
import BslLint.Proofs.Outline.Print
import BslLint.Proofs.Outline.CallText
import BslLint.Proofs.Outline.ModalCall
import BslLint.Proofs.Lint.Levels
import BslLint.Proofs.Lint.Filter
import BslLint.Proofs.Lint.SafeFix
import BslLint.Proofs.Diff.Patch
import BslLint.Proofs.Guard
import BslLint.Proofs.Scope
import BslLint.Proofs.Lint.Selection
import BslLint.Proofs.Diff.Surroundings
import BslLint.Proofs.Lint.Settings
import BslLint.Proofs.Lint.LinkSpacing.SecondPass
import BslLint.Proofs.Lint.LevelMap
import BslLint.Proofs.Text.Position
import BslLint.Proofs.Outline.DeclarationPrefix
import BslLint.Proofs.CommandLine.Run
import BslLint.Proofs.CommandLine.Fix
import BslLint.Proofs.Outline.WholeWord
