import ClosingBrace.Json.Printer

/-!
# Diagnostics

A diagnostic tells a reader of the source what is wrong and where. Its line and column both count
from 1; a position that is missing, not finite or not positive is replaced, so that a diagnostic
always points somewhere.

## Main statements

* `coerce_of_positive`, `coerce_positive`: what coercion keeps, and what it always gives.
-/

namespace ClosingBrace

/-- How serious a diagnostic is. Reports show errors and warnings and leave out anything else. -/
inductive Severity where
  | error
  | warning
  | other (label : String)
deriving DecidableEq

def Severity.label : Severity → String
  | .error => "error"
  | .warning => "warning"
  | .other label => label

/-- The severity that a word stands for. -/
def Severity.ofLabel (label : String) : Severity :=
  if label = "error" then .error else if label = "warning" then .warning else .other label

/-- A value that fills a place in a message. -/
inductive Argument where
  | text (value : String)
  | number (value : Number)
deriving DecidableEq

def Argument.toText : Argument → String
  | .text value => value
  | .number value => value.text

def Argument.toJson : Argument → Json
  | .text value => .string value
  | .number value => .number value

/-- What is wrong at a place of the source. -/
structure Diagnostic where
  line : Number
  column : Number
  message : String
  severity : Severity
  code : Option String := none
  hint : Option String := none
  /-- How many code units are marked. -/
  length : Option Number := none
  rule : Option String := none
  messageKey : Option String := none
  args : Option (List Argument) := none
deriving DecidableEq

namespace Diagnostic

/-! ### Positions -/

/-- A coordinate that is finite and positive, or else the fallback. -/
def coerce (coordinate : Option Number) (fallback : Number) : Number :=
  match coordinate with
  | some x => if x.isFinite && decide (0 < x) then x else fallback
  | none => fallback

/-- Further details of a diagnostic. A detail that is given replaces what the diagnostic would
otherwise say. -/
structure Details where
  line : Option Number := none
  column : Option Number := none
  message : Option String := none
  severity : Option Severity := none
  code : Option String := none
  hint : Option String := none
  length : Option Number := none
  rule : Option String := none
  messageKey : Option String := none
  args : Option (List Argument) := none

def place (severity : Severity) (line column : Option Number) (message : String)
    (details : Details) : Diagnostic where
  line := details.line.getD (coerce line 1)
  column := details.column.getD (coerce column 1)
  message := details.message.getD message
  severity := details.severity.getD severity
  code := details.code
  hint := details.hint
  length := details.length
  rule := details.rule
  messageKey := details.messageKey
  args := details.args

/-! ### As a value -/

def member? (key : String) (value : Option Json) : List (String × Json) :=
  match value with
  | some json => [(key, json)]
  | none => []

/-- A diagnostic as a value; details that are absent are left out. -/
def toJson (d : Diagnostic) : Json :=
  .object ([("line", .number d.line), ("column", .number d.column),
      ("message", .string d.message), ("severity", .string d.severity.label)]
    ++ member? "code" (d.code.map .string)
    ++ member? "hint" (d.hint.map .string)
    ++ member? "length" (d.length.map .number)
    ++ member? "rule" (d.rule.map .string)
    ++ member? "messageKey" (d.messageKey.map .string)
    ++ member? "args" (d.args.map fun args => .array (args.map Argument.toJson)))

def isError (d : Diagnostic) : Bool := d.severity == .error

def isWarning (d : Diagnostic) : Bool := d.severity == .warning

/-- How far a diagnostic stands behind another: the difference of their lines or, where there is
none, of their columns. -/
def distance (a b : Diagnostic) : Number :=
  if a.line - b.line = 0 then a.column - b.column else a.line - b.line

/-- Whether a diagnostic stands no later in the source than another. -/
def notAfter (a b : Diagnostic) : Bool := decide (a.distance b ≤ 0)

/-! ### Laws -/

theorem coerce_of_positive {x : Number} (hfinite : x.isFinite = true) (hpos : 0 < x)
    (fallback : Number) : coerce (some x) fallback = x := by
  simp [coerce, hfinite, hpos]

theorem coerce_positive (coordinate : Option Number) {fallback : Number} (h : 0 < fallback) :
    0 < coerce coordinate fallback := by
  unfold coerce
  split
  · split
    · simp_all
    · exact h
  · exact h

end Diagnostic
end ClosingBrace
