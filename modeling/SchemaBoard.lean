import SchemaBoard.Text.Lines
import SchemaBoard.Text.Identifier
import SchemaBoard.Text.Quoted
import SchemaBoard.Text.Nesting
import SchemaBoard.TypeExpr.Label
import SchemaBoard.TypeExpr.Printer
import SchemaBoard.TypeExpr.Reader
import SchemaBoard.Declaration.Printer
import SchemaBoard.Declaration.Reader
import SchemaBoard.Declaration.Batch
import SchemaBoard.Decimal.Places
import SchemaBoard.Decimal.Literal
import SchemaBoard.Data.Numbers
import SchemaBoard.TypeExpr.Check
import SchemaBoard.Board.Check
import SchemaBoard.Board.Basic
import SchemaBoard.Session.Command
import SchemaBoard.Board.Stamp
import SchemaBoard.Main
import SchemaBoard.Settings.Reader
import SchemaBoard.Proofs.Declaration.RoundTrip
import SchemaBoard.Proofs.Session.Invariant
import SchemaBoard.Proofs.Declaration.Conservation
import SchemaBoard.Proofs.TypeExpr.Grammar
import SchemaBoard.Proofs.Declaration.Neighbours
import SchemaBoard.Proofs.Declaration.Heads
import SchemaBoard.Proofs.Declaration.Enumerations
import SchemaBoard.Proofs.Declaration.Skipping
import SchemaBoard.Proofs.Declaration.Found
import SchemaBoard.Proofs.Declaration.Normal
import SchemaBoard.Proofs.Session.Version
import SchemaBoard.Proofs.Session.Focus
import SchemaBoard.Proofs.Declaration.InlineObjects
import SchemaBoard.Proofs.Member.Signature
import SchemaBoard.Proofs.Settings.Answers
import SchemaBoard.Proofs.TypeExpr.Clauses
import SchemaBoard.Proofs.TypeExpr.Fixpoint
import SchemaBoard.Proofs.TypeExpr.Meaning
import SchemaBoard.Proofs.Declaration.Trailing
import SchemaBoard.Proofs.Declaration.Margins
import SchemaBoard.Proofs.Declaration.Cutting
import SchemaBoard.Proofs.Declaration.Stability
import SchemaBoard.Proofs.Declaration.Shape
import SchemaBoard.Proofs.TypeExpr.References
import SchemaBoard.Proofs.Declaration.Wording
import SchemaBoard.Proofs.Declaration.Remarks
import SchemaBoard.Proofs.Member.Foreign
import SchemaBoard.Proofs.Declaration.Entries
import SchemaBoard.Proofs.Declaration.Layout
import SchemaBoard.Proofs.TypeExpr.Nodes
import SchemaBoard.Proofs.TypeExpr.Labels
import SchemaBoard.Proofs.Declaration.Sketches
import SchemaBoard.Proofs.Declaration.Tails
import SchemaBoard.Proofs.Board.Lookup
import SchemaBoard.Proofs.Session.Frame
import SchemaBoard.Proofs.Session.Commuting
import SchemaBoard.Proofs.Session.Removal
import SchemaBoard.Proofs.Session.Import
import SchemaBoard.Proofs.Session.PropertyIds
import SchemaBoard.Proofs.Session.Times
import SchemaBoard.Proofs.Session.Names
import SchemaBoard.Proofs.Settings.Format
import SchemaBoard.Proofs.Text.Cuts
import SchemaBoard.Proofs.Text.Wrapping
import SchemaBoard.Proofs.Checks.Verdict
