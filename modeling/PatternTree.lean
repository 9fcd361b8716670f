import PatternTree.Decimal.Basic
import PatternTree.Decimal.Shortest
import PatternTree.Derive.Block
import PatternTree.Derive.Generator
import PatternTree.Derive.Item
import PatternTree.Document.Basic
import PatternTree.Document.Lexeme
import PatternTree.Document.Printer
import PatternTree.Document.Reader
import PatternTree.Event
import PatternTree.Export
import PatternTree.Fault
import PatternTree.Import.Field
import PatternTree.Import.Node
import PatternTree.Import.Token
import PatternTree.InPlace
import PatternTree.Kind
import PatternTree.Literal
import PatternTree.Location
import PatternTree.Node.Agreement
import PatternTree.Node.Basic
import PatternTree.Node.Edit
import PatternTree.Number.Basic
import PatternTree.Number.Rounding
import PatternTree.Proofs.Acceptance
import PatternTree.Proofs.Alike
import PatternTree.Proofs.Blame
import PatternTree.Proofs.Cell
import PatternTree.Proofs.Checks
import PatternTree.Proofs.Child
import PatternTree.Proofs.Denotation
import PatternTree.Proofs.Editing
import PatternTree.Proofs.ExactNumber
import PatternTree.Proofs.Extent
import PatternTree.Proofs.FixedPoint
import PatternTree.Proofs.Normal
import PatternTree.Proofs.Objects
import PatternTree.Proofs.Occurrence
import PatternTree.Proofs.Precedence
import PatternTree.Proofs.Reading
import PatternTree.Proofs.RoundTrip
import PatternTree.Proofs.Sequence
import PatternTree.Proofs.Substitution
import PatternTree.Proofs.Switches
import PatternTree.Proofs.Tree
import PatternTree.Proofs.Verdict
import PatternTree.Settings.Basic
import PatternTree.Settings.OfDocument
import PatternTree.Settings.OfText
import PatternTree.Text.Hidden
import PatternTree.Text.Quoted
import PatternTree.Token
import PatternTree.Traced
import PatternTree.Validation
import PatternTree.Word
import PatternTree.Proofs.Reports
import PatternTree.Proofs.Log
import PatternTree.Proofs.Tally
import PatternTree.Proofs.Refusals
import PatternTree.Proofs.Passed
import PatternTree.Proofs.Nearest
import PatternTree.Proofs.NumericLiteral
import PatternTree.Proofs.Tokens
import PatternTree.Proofs.EnumBlocks
import PatternTree.Proofs.Writes
import PatternTree.Proofs.Messages
import PatternTree.Proofs.Descent
import PatternTree.Proofs.NumberText
import PatternTree.Proofs.StringText
import PatternTree.Proofs.Spelling
import PatternTree.Proofs.SettingsText
