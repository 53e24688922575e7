import ClosingBrace.Brace.Options
import ClosingBrace.Brace.Placement
import ClosingBrace.Lint.Message
import ClosingBrace.Lint.Rule

/-!
# The closing-brace rule

The rule takes a node that is a construct, finds its braces and reports the verdict of the policy on
the closing one. The diagnostic points at that brace and carries the number of its column, counted
from 1, as an argument.

## Main statements

* `analyze_of_not_construct`: nothing is found at a node that is no construct.
-/

namespace ClosingBrace

/-- How a violation is reported. -/
structure MessageSpec where
  key : String
  code : String
  template : String
  hint : String

def Violation.spec : Violation → MessageSpec
  | .lineBreakBefore => {
      key := "line.break.before"
      code := "RC-LINE-BREAK-BEFORE"
      template := "'\x7b0\x7d' at column \x7b1\x7d should have line break before."
      hint := "Start the closing brace of a multi-line block on its own line." }
  | .lineSame => {
      key := "line.same"
      code := "RC-LINE-SAME"
      template :=
        "'\x7b0\x7d' at column \x7b1\x7d should be on the same line as the next part of " ++
        "a multi-block statement (one that directly contains multiple blocks: if/else-if/else, " ++
        "do/while or try/catch/finally)."
      hint := "Write it as \"\x7d else \x7b\", \"\x7d catch (...) \x7b\", \"\x7d finally \x7b\" " ++
        "or \"\x7d while (...);\"." }
  | .lineAlone => {
      key := "line.alone"
      code := "RC-LINE-ALONE"
      template := "'\x7b0\x7d' at column \x7b1\x7d should be alone on a line."
      hint := "Move any code before or after the closing brace to another line." }

/-- A misplaced closing brace. -/
structure Finding where
  violation : Violation
  right : Handle
  /-- The column of the brace, counted from 1. -/
  column : Number
deriving DecidableEq

namespace Finding

/-- The arguments of the message: the brace and its column. -/
def args (f : Finding) : List Argument := [.text "\x7d", .number f.column]

/-- The verdict of a policy on the construct at a node, if it is a construct with braces. -/
def analyze (t : Tree) (policy : Policy) (h : Handle) : Except Tree.Error (Option Finding) := do
  match (← t.kind h).category? with
  | none => return none
  | some category =>
    match (← Context.extract t h category).braced? with
    | none => return none
    | some c =>
      let rightLine := t.sourceLine (← t.line c.right)
      match ← c.verdict t policy rightLine with
      | none => return none
      | some violation => return some ⟨violation, c.right, (← t.column c.right) + 1⟩

def toDiagnostic (t : Tree) (severity : Severity) (f : Finding) :
    Except Tree.Error Diagnostic := do
  let spec := f.violation.spec
  let line ← t.line f.right
  let column ← t.column f.right
  return .place severity (some line) (some (column + 1)) (Message.format spec.template f.args) {
    code := some spec.code
    hint := some spec.hint
    length := some 1
    rule := some BraceOptions.ruleId
    messageKey := some spec.key
    args := some f.args }

/-! ### Laws -/

theorem analyze_of_not_construct {t : Tree} {policy : Policy} {h : Handle} {kind : Kind}
    (hkind : t.kind h = .ok kind) (hcategory : kind.category? = none) :
    analyze t policy h = .ok none := by
  simp [analyze, hkind, hcategory, bind, Except.bind, pure, Except.pure]

end Finding

def BraceOptions.rule (options : BraceOptions) : Rule where
  id := BraceOptions.ruleId
  kinds := options.kinds
  check t h := do
    match ← Finding.analyze t options.policy h with
    | none => return none
    | some finding => return some (← finding.toDiagnostic t options.severity)

end ClosingBrace
