import Docblock.Command.Arguments
import Docblock.Command.Basic
import Docblock.Command.Failure
import Docblock.Command.Plan
import Docblock.Comment.Block
import Docblock.Comment.Layout
import Docblock.Comment.Skeleton
import Docblock.Comment.Tag
import Docblock.Console
import Docblock.Decimal
import Docblock.Declaration.Basic
import Docblock.Declaration.Pattern
import Docblock.Document.Basic
import Docblock.Document.Language
import Docblock.Document.Line
import Docblock.Document.LineRange
import Docblock.Document.Position
import Docblock.Document.Source
import Docblock.Edit.Apply
import Docblock.Edit.Basic
import Docblock.Json
import Docblock.Main
import Docblock.Proofs.Command.Check
import Docblock.Proofs.Command.Confined
import Docblock.Proofs.Command.Plan
import Docblock.Proofs.Command.Saved
import Docblock.Proofs.Comment.Complete
import Docblock.Proofs.Comment.Layout
import Docblock.Proofs.Comment.Placeholder
import Docblock.Proofs.Comment.ReadBack
import Docblock.Proofs.Comment.Relayout
import Docblock.Proofs.Comment.Skeleton
import Docblock.Proofs.Comment.Tag
import Docblock.Proofs.Declaration.Brace
import Docblock.Proofs.Declaration.Grammar
import Docblock.Proofs.Declaration.Keywords
import Docblock.Proofs.Declaration.Matches
import Docblock.Proofs.Declaration.Ordinary
import Docblock.Proofs.Declaration.Taken
import Docblock.Proofs.Document.Cut
import Docblock.Proofs.Document.Offset
import Docblock.Proofs.Document.Rows
import Docblock.Proofs.Document.Selection
import Docblock.Proofs.Edit.Apply
import Docblock.Proofs.Edit.Bytes
import Docblock.Proofs.Edit.Faithful
import Docblock.Proofs.Edit.Majority
import Docblock.Proofs.Edit.Order
import Docblock.Proofs.Edit.Patch
import Docblock.Proofs.Edit.Reorder
import Docblock.Proofs.Edit.Splice
import Docblock.Proofs.Edit.Survival
import Docblock.Proofs.Scan.Adjacent
import Docblock.Proofs.Scan.Alike
import Docblock.Proofs.Scan.Ascent
import Docblock.Proofs.Scan.Below
import Docblock.Proofs.Scan.Breaks
import Docblock.Proofs.Scan.Count
import Docblock.Proofs.Scan.Cover
import Docblock.Proofs.Scan.Cutting
import Docblock.Proofs.Scan.Documented
import Docblock.Proofs.Scan.Inert
import Docblock.Proofs.Scan.Insertion
import Docblock.Proofs.Scan.Inside
import Docblock.Proofs.Scan.Patch
import Docblock.Proofs.Scan.Phases
import Docblock.Proofs.Scan.Place
import Docblock.Proofs.Scan.Relaid
import Docblock.Proofs.Scan.Rerun
import Docblock.Proofs.Scan.Segment
import Docblock.Proofs.Scan.State
import Docblock.Proofs.Scan.Verdict
import Docblock.Proofs.Scan.Whole
import Docblock.Proofs.Settings.ReadBack
import Docblock.Proofs.Text.Digits
import Docblock.Proofs.Text.Find
import Docblock.Proofs.Text.Hex
import Docblock.Proofs.Text.Lines
import Docblock.Proofs.Text.Pieces
import Docblock.Proofs.Text.Search
import Docblock.Proofs.Text.Trim
import Docblock.Proofs.Text.Words
import Docblock.Proofs.Toml.Reader
import Docblock.Proofs.Toml.String
import Docblock.Proofs.Toml.Table
import Docblock.Proofs.Toml.Value
import Docblock.Proofs.Workspace.Change
import Docblock.Scan.Basic
import Docblock.Scan.Document
import Docblock.Scan.Event
import Docblock.Settings.Basic
import Docblock.Settings.Export
import Docblock.Settings.File
import Docblock.Settings.Issue
import Docblock.Text.Basic
import Docblock.Text.Blank
import Docblock.Text.Hex
import Docblock.Text.Word
import Docblock.Toml.Reader
import Docblock.Toml.Scalar
import Docblock.Toml.String
import Docblock.Toml.Table
import Docblock.Toml.Value
import Docblock.Toml.Writer
import Docblock.Workspace
import Docblock.Yaml.Resolve
import Docblock.Yaml.Scalar
