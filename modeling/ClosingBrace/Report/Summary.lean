import ClosingBrace.Lint.Diagnostic

/-!
# Summaries

A summary is the result of linting as a value for other programs: how many errors and warnings a
file has, whether it is valid, and the diagnostics themselves. A file is valid when it has no
errors.

## Main statements

* `isValid_iff`: a file is valid exactly when its errors number zero.
-/

namespace ClosingBrace.Summary

def count (n : Nat) : Json := .number (.ofNat n)

def errors (ds : List Diagnostic) : List Diagnostic := ds.filter Diagnostic.isError

def warnings (ds : List Diagnostic) : List Diagnostic := ds.filter Diagnostic.isWarning

def isValid (ds : List Diagnostic) : Bool := (errors ds).isEmpty

def list (ds : List Diagnostic) : Json := .array (ds.map Diagnostic.toJson)

/-- The members that every summary of a file starts with. -/
def counts (file : String) (ds : List Diagnostic) : List (String × Json) :=
  [("file", .string file), ("valid", .bool (isValid ds)),
   ("errorCount", count (errors ds).length), ("warningCount", count (warnings ds).length)]

/-- The summary of a file, errors and warnings apart. -/
def ofFile (file : String) (ds : List Diagnostic) : Json :=
  .object (counts file ds ++ [("errors", list (errors ds)), ("warnings", list (warnings ds))])

theorem isValid_iff (ds : List Diagnostic) : isValid ds = true ↔ (errors ds).length = 0 := by
  simp [isValid]

end ClosingBrace.Summary
