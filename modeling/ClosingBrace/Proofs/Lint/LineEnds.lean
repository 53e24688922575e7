import ClosingBrace.Lint.Config
import ClosingBrace.Proofs.Text.LineEnds
import ClosingBrace.Report.Text

/-!
# Line ends do not matter

A tree keeps its source as lines, and a report quotes its content by lines. Neither looks at the
text in any other way, so two texts with the same lines cannot be told apart: they have the same
diagnostics and the same reports, whichever characters end their lines.

## Main statements

* `Tree.ofOutline_of_splitLines`, `Report.text?_of_splitLines`: only the lines of a text count.
* `line_ends_do_not_matter`: what the lines of a text are, and that nothing else is seen of it.
-/

namespace ClosingBrace

/-- A tree knows its source by the lines only. -/
theorem Tree.ofOutline_of_splitLines {s s' : String} (h : Text.splitLines s = Text.splitLines s')
    (outline : Outline) : ofOutline s outline = ofOutline s' outline := by
  unfold ofOutline empty
  rw [h]

/-- A report knows its content by the lines only. -/
theorem Report.text?_of_splitLines {s s' : String} (h : Text.splitLines s = Text.splitLines s')
    (file : String) (ds : List Diagnostic) (color : Bool) :
    text? file s ds color = text? file s' ds color := by
  unfold text? text
  rw [h]

/-- **Line ends do not matter.** The lines of a text are the only ones that it interleaves with line
ends. So lines are found again whichever line end joins them, and every outline and every list of
diagnostics is linted and reported in the same way over each of the joined texts. -/
theorem line_ends_do_not_matter :
    (∀ s lines, Text.splitLines s = lines ↔ Text.Interleaves lines s) ∧
    ∀ lines, lines ≠ [] → (∀ line ∈ lines, Text.Unbroken line.toList) →
      (∀ e, Text.splitLines (Text.joinLines e lines) = lines) ∧
      ∀ e e', (∀ outline (config : Config),
          config.lint (Tree.ofOutline (Text.joinLines e lines) outline) =
            config.lint (Tree.ofOutline (Text.joinLines e' lines) outline)) ∧
        ∀ file ds color, Report.text? file (Text.joinLines e lines) ds color =
          Report.text? file (Text.joinLines e' lines) ds color := by
  refine ⟨fun s lines => Text.splitLines_eq_iff, fun lines hne hlines => ?_⟩
  have hjoin (e : Text.LineEnd) : Text.splitLines (Text.joinLines e lines) = lines :=
    Text.splitLines_join e hne hlines
  refine ⟨hjoin, fun e e' => ?_⟩
  have hsame := (hjoin e).trans (hjoin e').symm
  constructor
  · intro outline config
    rw [Tree.ofOutline_of_splitLines hsame outline]
  · intro file ds color
    exact Report.text?_of_splitLines hsame file ds color

/-- A block with an empty line in it, whose carriage returns then stand side by side. -/
theorem line_ends_do_not_matter_in_empty_line :
    let lines := ["if (a) \x7b", "", "  b(); \x7d"]
    let source (e : Text.LineEnd) := Text.joinLines e lines
    let outline : Outline := .node .ifStatement 1 0
      [.node .statementList 1 7 [.node .methodCall 3 2 [], .node .rightCurly 3 7 []]]
    lines ≠ [] ∧ (∀ line ∈ lines, Text.Unbroken line.toList) ∧
      source .carriageReturn = "if (a) \x7b\r\r  b(); \x7d" ∧
      Text.splitLines (source .carriageReturn) = lines ∧
      Text.splitLines (source .both) = lines ∧
      Config.standard.lint (Tree.ofOutline (source .carriageReturn) outline) =
        Config.standard.lint (Tree.ofOutline (source .both) outline) := by
  intro lines source outline
  have hne : lines ≠ [] := List.cons_ne_nil _ _
  have hcomputed :
      (lines.all fun line => line.toList.all fun c => c != '\r' && c != '\n') = true := by
    decide +kernel
  have hlines : ∀ line ∈ lines, Text.Unbroken line.toList := by
    intro line hline
    rw [Text.unbroken_iff_all]
    exact List.all_eq_true.mp hcomputed line hline
  obtain ⟨hjoin, hsame⟩ := line_ends_do_not_matter.2 lines hne hlines
  obtain ⟨hlint, -⟩ := hsame .carriageReturn .both
  exact ⟨hne, hlines, by decide +kernel, hjoin _, hjoin _, hlint outline Config.standard⟩

end ClosingBrace
