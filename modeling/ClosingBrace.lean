import ClosingBrace.Main
import ClosingBrace.Tool
import ClosingBrace.Proofs.Number.Rounding
import ClosingBrace.Proofs.Number.Whole
import ClosingBrace.Proofs.Schema.Judging
import ClosingBrace.Proofs.Text.LineEnds
import ClosingBrace.Proofs.Text.Displaced
import ClosingBrace.Proofs.Text.LetterCase
import ClosingBrace.Proofs.Tree.Arena
import ClosingBrace.Proofs.Tree.Links
import ClosingBrace.Proofs.Tree.Listing
import ClosingBrace.Proofs.Tree.Following
import ClosingBrace.Proofs.Tree.Tokens
import ClosingBrace.Proofs.Tree.Planting
import ClosingBrace.Proofs.Tree.Additions
import ClosingBrace.Proofs.Tree.Format
import ClosingBrace.Proofs.Tree.Loading
import ClosingBrace.Proofs.Tree.Documents
import ClosingBrace.Proofs.Tree.Likeness
import ClosingBrace.Proofs.Tree.Displaced
import ClosingBrace.Proofs.Tree.Ranks
import ClosingBrace.Proofs.Tree.Numbering
import ClosingBrace.Proofs.Tree.Building
import ClosingBrace.Proofs.Tree.Searches
import ClosingBrace.Proofs.Tree.FirstToken
import ClosingBrace.Proofs.Brace.Landmarks
import ClosingBrace.Proofs.Brace.Geometry
import ClosingBrace.Proofs.Brace.LineBreaks
import ClosingBrace.Proofs.Brace.Likeness
import ClosingBrace.Proofs.Brace.Questions
import ClosingBrace.Proofs.Brace.Skipping
import ClosingBrace.Proofs.Brace.Verdicts
import ClosingBrace.Proofs.Brace.ElseIf
import ClosingBrace.Proofs.Brace.TryClauses
import ClosingBrace.Proofs.Brace.Emptiness
import ClosingBrace.Proofs.Brace.Alone
import ClosingBrace.Proofs.Brace.Strictness
import ClosingBrace.Proofs.Brace.DoubleBrace
import ClosingBrace.Proofs.Brace.Reports
import ClosingBrace.Proofs.Lint.Visits
import ClosingBrace.Proofs.Lint.Wording
import ClosingBrace.Proofs.Lint.Places
import ClosingBrace.Proofs.Lint.Coverage
import ClosingBrace.Proofs.Lint.Selection
import ClosingBrace.Proofs.Lint.Blame
import ClosingBrace.Proofs.Lint.Renumbering
import ClosingBrace.Proofs.Lint.Displaced
import ClosingBrace.Proofs.Lint.LineEnds
import ClosingBrace.Proofs.Lint.Safety
import ClosingBrace.Proofs.Tree.Sources
import ClosingBrace.Proofs.Lint.Sources
import ClosingBrace.Proofs.Brace.Options
import ClosingBrace.Proofs.Brace.Meaning
import ClosingBrace.Proofs.Lint.Severity
import ClosingBrace.Proofs.Lint.Acceptance
import ClosingBrace.Proofs.Tool.Agreement
import ClosingBrace.Proofs.Command.Isolation
import ClosingBrace.Proofs.Command.Reading
import ClosingBrace.Proofs.Command.Composition
import ClosingBrace.Proofs.Command.Formats
import ClosingBrace.Proofs.Command.Precedence
import ClosingBrace.Proofs.Text.Spelling
import ClosingBrace.Proofs.Brace.Issues
import ClosingBrace.Proofs.Brace.Spelling
import ClosingBrace.Proofs.Number.Bounds
import ClosingBrace.Proofs.Number.Digits
import ClosingBrace.Proofs.Report.Rows
import ClosingBrace.Proofs.Report.Excerpt
import ClosingBrace.Proofs.Report.Labels
import ClosingBrace.Proofs.Report.Colors
import ClosingBrace.Proofs.Report.Composition
import ClosingBrace.Number.Double
