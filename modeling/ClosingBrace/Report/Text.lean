import ClosingBrace.Lint.Diagnostic
import ClosingBrace.Text.Lines

/-!
# Text reports

A report has one block for each error and then one for each warning: a heading, the position, the
line in question between its neighbours with a row of carets under the reported column, and the
hint. Color is painted over the headings and the carets and changes nothing else.

Lines of the source outside the content are taken to be the nearest line of it, while the number in
front of a row is always the reported one.

Texts of more than `longest` code units cannot be made; `limit?` tells when a report would need one.

## Main statements

* `text_of_nothing`: a report without errors and warnings only says so.
* `paint_plain`: without color nothing is painted.
-/

namespace ClosingBrace.Report

/-! ### Paint -/

/-- The colors of a report. -/
inductive Paint where
  | red
  | yellow

def Paint.code : Paint → String
  | .red => "31"
  | .yellow => "33"

/-- Paints a text, if there is to be color. -/
def paint (color : Bool) (p : Paint) (s : String) : String :=
  if color then "\x1b[" ++ p.code ++ "m" ++ s ++ "\x1b[0m" else s

/-! ### Rows -/

def times (n : Nat) (c : Char) : String := String.ofList (List.replicate n c)

/-- A number in a column of at least the given width, at its right edge. -/
def numberCell (width : Nat) (n : Number) : String :=
  times (width - n.text.length) ' ' ++ n.text

def numberWidth (lines : List String) : Nat := (toString lines.length).length

def sourceRow (width : Nat) (n : Number) (line : String) : String :=
  "  " ++ numberCell width n ++ " | " ++ line

/-- The line at a place counted from 0, if the place is one. -/
def lineAt? (lines : List String) (place : Number) : Option String :=
  match place.toNat? with
  | some index => lines[index]?
  | none => none

/-- The place of a reported line among the lines, brought to the nearest end if it lies outside. -/
def placeOf (lines : List String) (line : Number) : Number :=
  let last := Number.ofNat (lines.length - 1)
  let place := line - 1
  let bounded := if last < place then last else place
  if bounded < 0 then 0 else bounded

/-- How far the carets of a diagnostic stand from the start of the line. -/
def caretPad (d : Diagnostic) : Number := if d.column - 1 < 0 then 0 else d.column - 1

def caretCount (d : Diagnostic) : Number :=
  match d.length with
  | some n => if n < 1 then 1 else n
  | none => 1

def caretRow (color : Bool) (width : Nat) (d : Diagnostic) : String :=
  "  " ++ times width ' ' ++ " | " ++ times (caretPad d).truncate.toNat ' '
    ++ paint color .red (times (caretCount d).truncate.toNat '^')

/-- The heading of a block: the severity and, if there is one, the code. -/
def heading (color : Bool) (d : Diagnostic) : String :=
  let label :=
    if d.isError then paint color .red "error" else paint color .yellow "warning"
  let code :=
    match d.code with
    | some c => if c.isEmpty then "" else "[" ++ c ++ "]"
    | none => ""
  label ++ code ++ ": " ++ d.message

/-- The rows of a hint; an empty hint has none. -/
def hintRows : Option String → List String
  | some hint => if hint.isEmpty then [] else ["hint: " ++ hint]
  | none => []

def neighbourRows (width : Nat) (n : Number) : Option String → List String
  | some line => [sourceRow width n line]
  | none => []

/-- The block of a diagnostic, with an empty row at its end. -/
def block (file : String) (lines : List String) (color : Bool) (d : Diagnostic) : List String :=
  let width := numberWidth lines
  let place := placeOf lines d.line
  let before := if 0 < place then lineAt? lines (place - 1) else none
  let after :=
    if place + 1 < Number.ofNat lines.length then lineAt? lines (place + 1) else none
  [heading color d, "at " ++ file ++ ":" ++ d.line.text ++ ":" ++ d.column.text]
    ++ neighbourRows width (d.line - 1) before
    ++ [sourceRow width d.line ((lineAt? lines place).getD ""), caretRow color width d]
    ++ neighbourRows width (d.line + 1) after
    ++ hintRows d.hint
    ++ [""]

/-! ### Reports -/

/-- The diagnostics that a report shows: errors first, then warnings. -/
def shown (ds : List Diagnostic) : List Diagnostic :=
  ds.filter Diagnostic.isError ++ ds.filter Diagnostic.isWarning

def text (file content : String) (ds : List Diagnostic) (color : Bool) : String :=
  if (shown ds).isEmpty then "Valid"
  else "\n".intercalate ((shown ds).flatMap (block file (Text.splitLines content) color))

/-! ### The limit on the length of a text -/

/-- The greatest number of code units a text can have. -/
def longest : Nat := 536870888

/-- Why a report cannot be made. -/
inductive LimitError where
  | endless (count : Number)
  | tooLong
deriving DecidableEq

def LimitError.message : LimitError → String
  | .endless count => "Invalid count value: " ++ count.text
  | .tooLong => "Invalid string length"

/-- Whether a row of so many characters is beyond the limit. -/
def countLimit? (count : Number) : Option LimitError :=
  if count.isFinite then if longest < count.truncate.toNat then some .tooLong else none
  else some (.endless count)

/-- Whether the caret row of a diagnostic is beyond the limit. -/
def rowLimit? (d : Diagnostic) : Option LimitError :=
  (countLimit? (caretPad d)).or (countLimit? (caretCount d))

def limit? (ds : List Diagnostic) : Option LimitError := (shown ds).findSome? rowLimit?

/-- The report on a file, unless it is beyond the limit. -/
def text? (file content : String) (ds : List Diagnostic) (color : Bool) :
    Except LimitError String :=
  match limit? ds with
  | some e => .error e
  | none => .ok (text file content ds color)

/-! ### Laws -/

@[simp] theorem paint_plain (p : Paint) (s : String) : paint false p s = s := rfl

theorem text_of_nothing {ds : List Diagnostic} (h : shown ds = []) (file content : String)
    (color : Bool) : text file content ds color = "Valid" := by
  simp [text, h]

end ClosingBrace.Report
