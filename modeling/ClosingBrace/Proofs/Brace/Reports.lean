import ClosingBrace.Proofs.Brace.Verdicts
import ClosingBrace.Proofs.Lint.Wording
import ClosingBrace.Proofs.Tree.Format
import ClosingBrace.Proofs.Tree.Planting

/-!
# Reports

A diagnostic of the closing-brace rule repeats what its finding says: the line of the brace, its
column counted from 1, and the wording of the violation. A diagnostic may point elsewhere than its
finding only when a position cannot be shown, and the positions of a document always can.

## Main statements

* `toDiagnostic_of_placed`, `toDiagnostic_yields`: the diagnostic of a finding reports it.
-/

namespace ClosingBrace

variable {t : Tree} {options : BraceOptions}

/-- `d` reports the finding `f` of the rule with these options. -/
structure Reports (t : Tree) (options : BraceOptions) (f : Finding) (d : Diagnostic) : Prop where
  line : t.line f.right = .ok d.line
  column : ∃ column, t.column f.right = .ok column ∧ d.column = column + 1
  args : d.args = some [.text "\x7d", .number d.column]
  severity : d.severity = options.severity
  code : d.code = some f.violation.spec.code
  messageKey : d.messageKey = some f.violation.spec.key
  hint : d.hint = some f.violation.spec.hint
  length : d.length = some 1
  rule : d.rule = some BraceOptions.ruleId
  /-- The template is three texts around two places, which the brace and its column fill. -/
  message : ∃ before between behind,
    Message.HasTwoPlaces f.violation.spec.template before between behind ∧
      d.message = before ++ "\x7d" ++ between ++ d.column.text ++ behind

/-- The template of every violation has two places. -/
theorem Violation.exists_hasTwoPlaces (v : Violation) :
    ∃ before between behind, Message.HasTwoPlaces v.spec.template before between behind := by
  cases v with
  | lineBreakBefore =>
      refine ⟨"'", "' at column ", " should have line break before.", ?_⟩
      unfold Message.HasTwoPlaces
      decide +kernel
  | lineSame =>
      refine ⟨"'", "' at column ", " should be on the same line as the next part of " ++
        "a multi-block statement (one that directly contains multiple blocks: if/else-if/else, " ++
        "do/while or try/catch/finally).", ?_⟩
      unfold Message.HasTwoPlaces
      decide +kernel
  | lineAlone =>
      refine ⟨"'", "' at column ", " should be alone on a line.", ?_⟩
      unfold Message.HasTwoPlaces
      decide +kernel

namespace Finding

/-- The diagnostic that says what a finding says, about a brace on the given line. -/
def told (severity : Severity) (line : Number) (f : Finding) : Diagnostic where
  line := line
  column := f.column
  message := Message.format f.violation.spec.template f.args
  severity := severity
  code := some f.violation.spec.code
  hint := some f.violation.spec.hint
  length := some 1
  rule := some BraceOptions.ruleId
  messageKey := some f.violation.spec.key
  args := some f.args

/-- The position of a placed node is never replaced. -/
theorem toDiagnostic_of_placed (hall : t.All Placed) {f : Finding} (hright : f.right < t.size)
    (hcolumn : f.column = t.columnAt f.right + 1) (severity : Severity) :
    f.toDiagnostic t severity = .ok (f.told severity (t.lineAt f.right)) := by
  obtain ⟨⟨hline, hlinepos⟩, hwhole, hnonneg⟩ := hall f.right hright
  obtain ⟨hcolumnpos, hcolumnfinite⟩ := Number.add_one_of_isWhole hwhole hnonneg
  have hlinekept :=
    Diagnostic.coerce_of_positive (Number.isFinite_of_isWhole hline) hlinepos 1
  have hcolumnkept := Diagnostic.coerce_of_positive hcolumnfinite hcolumnpos 1
  simp only [toDiagnostic, Tree.line_of_lt hright, Tree.column_of_lt hright, ok_bind,
    Diagnostic.place, Option.getD_none, hlinekept, hcolumnkept, told, hcolumn]
  rfl

/-- **The diagnostic of a finding reports it.** -/
theorem toDiagnostic_yields (hall : t.All Placed) {f : Finding} (hright : f.right < t.size)
    (hcolumn : f.column = t.columnAt f.right + 1) :
    Yields (f.toDiagnostic t options.severity) (Reports t options f) := by
  obtain ⟨before, between, behind, hplaces⟩ := f.violation.exists_hasTwoPlaces
  rw [toDiagnostic_of_placed hall hright hcolumn]
  refine .ok ?_
  constructor
  case line => exact Tree.line_of_lt hright
  case column => exact ⟨_, Tree.column_of_lt hright, hcolumn⟩
  case message =>
    refine ⟨before, between, behind, hplaces, ?_⟩
    rw [told, args, hplaces.format_eq, Argument.toText, Argument.toText]
  all_goals rfl

end Finding
end ClosingBrace
