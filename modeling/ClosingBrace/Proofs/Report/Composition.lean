import ClosingBrace.Proofs.Outcome
import ClosingBrace.Proofs.Report.Colors

/-!
# Reports block by block

A report on several diagnostics is made of the reports on each of them, the errors first and then
the warnings, joined by line feeds. It fails if one of those reports does, and the first failure is
its own. So no diagnostic has an influence on what is said of another. Color is paint on the rows,
and taking it off leaves the report without color.

## Main statements

* `join_flatMap`: rows are joined block by block.
* `text?_of_shown`: a report is made of the reports on single diagnostics.
* `report_composes`: how reports compose, and what color adds to them.
-/

namespace ClosingBrace.Report

variable {file content : String} {ds : List Diagnostic} {d : Diagnostic} {color : Bool}

/-! ## Rows -/

/-- Rows are joined block by block: a block has rows, so the join of the blocks has as many line
feeds between rows. -/
theorem join_flatMap {α : Type} {rows : α → List String} (hrows : ∀ a, rows a ≠ []) (l : List α) :
    "\n".intercalate (l.flatMap rows) =
      "\n".intercalate (l.map fun a => "\n".intercalate (rows a)) := by
  induction l with
  | nil => rfl
  | cons a l ih =>
      cases l with
      | nil => simp
      | cons b l =>
          have hlater : (b :: l).flatMap rows ≠ [] := by simp [hrows b]
          calc "\n".intercalate ((a :: b :: l).flatMap rows)
              = "\n".intercalate (rows a) ++ "\n" ++ "\n".intercalate ((b :: l).flatMap rows) := by
                rw [List.flatMap_cons, String.intercalate_append_of_ne_nil (hrows a) hlater]
            _ = "\n".intercalate (rows a) ++ "\n" ++
                  "\n".intercalate ((b :: l).map fun a => "\n".intercalate (rows a)) := by rw [ih]
            _ = "\n".intercalate ((a :: b :: l).map fun a => "\n".intercalate (rows a)) :=
                String.intercalate_cons_cons.symm

/-- A block starts with two rows at least. -/
theorem exists_block_eq (file : String) (lines : List String) (color : Bool) (d : Diagnostic) :
    ∃ first second rest, block file lines color d = first :: second :: rest :=
  ⟨_, _, _, rfl⟩

theorem block_ne_nil (file : String) (lines : List String) (color : Bool) (d : Diagnostic) :
    block file lines color d ≠ [] := by
  obtain ⟨first, second, rest, hblock⟩ := exists_block_eq file lines color d
  rw [hblock]
  exact List.cons_ne_nil _ _

/-! ## What is shown -/

theorem mem_shown_iff : d ∈ shown ds ↔ d ∈ ds ∧ (d.severity = .error ∨ d.severity = .warning) := by
  simp only [shown, List.mem_append, List.mem_filter, Diagnostic.isError, Diagnostic.isWarning,
    beq_iff_eq, and_or_left]

/-- A single error or warning is shown. -/
theorem shown_singleton (hd : d.severity = .error ∨ d.severity = .warning) : shown [d] = [d] := by
  rcases hd with hd | hd <;> simp [shown, Diagnostic.isError, Diagnostic.isWarning, hd]

/-- Errors and warnings are shown, each as often as it is there. -/
theorem shown_perm (hds : ∀ d ∈ ds, d.severity = .error ∨ d.severity = .warning) :
    (shown ds).Perm ds := by
  have hwarnings : ds.filter Diagnostic.isWarning = ds.filter fun d => !d.isError := by
    apply List.filter_congr
    intro d hd
    rcases hds d hd with h | h <;> simp [Diagnostic.isWarning, Diagnostic.isError, h]
  rw [shown, hwarnings]
  exact List.filter_append_perm _ ds

/-! ## Reports -/

/-- A report that says that there is nothing to report has one line only. -/
theorem text_ne_valid (hne : shown ds ≠ []) : text file content ds color ≠ "Valid" := by
  obtain ⟨d, rest, hds⟩ := List.exists_cons_of_ne_nil hne
  obtain ⟨first, second, later, hblock⟩ := exists_block_eq file (Text.splitLines content) color d
  intro htext
  have hbreak : '\n' ∈ (text file content ds color).toList := by
    rw [text, hds, if_neg (by simp), List.flatMap_cons, hblock, List.cons_append, List.cons_append,
      String.intercalate_cons_cons]
    simp
  rw [htext] at hbreak
  exact absurd hbreak (by decide)

/-- A report is refused for the first row beyond the limit. -/
theorem text?_eq_elim (file content : String) (ds : List Diagnostic) (color : Bool) :
    text? file content ds color = (limit? ds).elim (.ok (text file content ds color)) .error := by
  unfold text?
  cases limit? ds <;> rfl

/-- A report says that there is nothing to report exactly if nothing is shown. -/
theorem text?_eq_valid_iff : text? file content ds color = .ok "Valid" ↔ shown ds = [] := by
  rw [text?_eq_elim]
  constructor
  · intro hvalid
    apply Decidable.byContradiction
    intro hne
    cases hlimit : limit? ds with
    | none =>
        rw [hlimit] at hvalid
        exact text_ne_valid hne (Except.ok.inj hvalid)
    | some e =>
        rw [hlimit] at hvalid
        cases hvalid
  · intro hnothing
    rw [limit?, hnothing, text_of_nothing hnothing]
    rfl

/-- **A report is made of the reports on single diagnostics.** -/
theorem text?_of_shown (hne : shown ds ≠ []) :
    text? file content ds color =
      ((shown ds).mapM fun d => text? file content [d] color).map "\n".intercalate := by
  have hsingle : ∀ d ∈ shown ds, text? file content [d] color =
      (rowLimit? d).elim (.ok ("\n".intercalate (block file (Text.splitLines content) color d)))
        .error := by
    intro d hd
    have hshown := shown_singleton (mem_shown_iff.mp hd).2
    have hlimit : limit? [d] = rowLimit? d := by
      rw [limit?, hshown, List.findSome?_singleton]
    have htext : text file content [d] color =
        "\n".intercalate (block file (Text.splitLines content) color d) := by
      rw [text, hshown, if_neg (by simp), List.flatMap_singleton]
    rw [text?_eq_elim, hlimit, htext]
  have htext : text file content ds color = "\n".intercalate ((shown ds).map fun d =>
      "\n".intercalate (block file (Text.splitLines content) color d)) := by
    rw [text, if_neg (by simpa using hne), join_flatMap (block_ne_nil _ _ _)]
  rw [mapM_eq_elim hsingle, text?_eq_elim, htext, limit?]
  cases (shown ds).findSome? rowLimit? <;> rfl

/-- How the report on a list of errors and warnings is made of the reports on each of them. -/
structure Composes (file content : String) (ds : List Diagnostic) (color : Bool) : Prop where
  valid : text? file content ds color = .ok "Valid" ↔ ds = []
  /-- A report is made unless a diagnostic asks for a row beyond the limit. -/
  made : (∃ report, text? file content ds color = .ok report) ↔ ∀ d ∈ ds, rowLimit? d = none
  /-- The reports on the errors and then those on the warnings, each in the order of the list. -/
  blocks : ds ≠ [] → text? file content ds color =
    ((ds.filter (·.severity = .error) ++ ds.filter (·.severity = .warning)).mapM fun d =>
      text? file content [d] color).map "\n".intercalate
  /-- None is left out and none is there twice. -/
  complete : (ds.filter (·.severity = .error) ++ ds.filter (·.severity = .warning)).Perm ds

theorem composes (hds : ∀ d ∈ ds, d.severity = .error ∨ d.severity = .warning) :
    Composes file content ds color := by
  have hperm := shown_perm hds
  have hempty : shown ds = [] ↔ ds = [] := by
    constructor
    · intro h
      rw [h] at hperm
      exact hperm.symm.eq_nil
    · rintro rfl
      rfl
  have hlimit : limit? ds = none ↔ ∀ d ∈ ds, rowLimit? d = none := by
    rw [limit?, List.findSome?_eq_none_iff]
    exact forall_congr' fun d => imp_congr_left hperm.mem_iff
  constructor
  case valid => exact text?_eq_valid_iff.trans hempty
  case made =>
    rw [← hlimit, text?_eq_elim]
    cases limit? ds <;> simp
  case blocks => exact fun hne => text?_of_shown (mt hempty.mp hne)
  case complete => exact hperm

/-! ## Color -/

/-- No text that a report is made of has an escape character. -/
structure FreeOfEscapes (file content : String) (ds : List Diagnostic) : Prop where
  file : Unescaped file
  content : Unescaped content
  diagnostics : ∀ d ∈ ds, UnescapedIn d

theorem painted_blocks (hfile : Unescaped file) (hcontent : Unescaped content)
    (hds : ∀ d ∈ ds, UnescapedIn d) :
    List.Forall₂ Painted (ds.flatMap (block file (Text.splitLines content) false))
      (ds.flatMap (block file (Text.splitLines content) true)) := by
  induction ds with
  | nil => exact .nil
  | cons d ds ih =>
      have hfirst := painted_block hfile hcontent (hds d List.mem_cons_self)
      have hlater := ih fun e he => hds e (List.mem_cons_of_mem _ he)
      exact List.rel_append hfirst hlater

/-- Taking the colors off a report leaves the report without color. -/
theorem FreeOfEscapes.uncolored_text (h : FreeOfEscapes file content ds) :
    uncolored (text file content ds true) = text file content ds false := by
  apply Painted.uncolored_eq
  unfold text
  split
  · exact Unescaped.painted (by decide)
  · apply painted_join
    apply painted_blocks h.file h.content
    intro d hd
    exact h.diagnostics d (mem_shown_iff.mp hd).1

/-- **Reports compose block by block, and color is only paint on them.** -/
theorem report_composes (hds : ∀ d ∈ ds, d.severity = .error ∨ d.severity = .warning) :
    (∀ color, Composes file content ds color) ∧
      (FreeOfEscapes file content ds →
        (text? file content ds true).map uncolored = text? file content ds false) := by
  refine ⟨fun color => composes hds, fun hfree => ?_⟩
  rw [text?_eq_elim, text?_eq_elim]
  cases limit? ds with
  | none => exact congrArg Except.ok hfree.uncolored_text
  | some e => rfl

/-- A warning without details stands before an error that has them all. -/
theorem report_composes_of_warning_before_error :
    let content := "if (x) \x7b y(); \x7d\nz();"
    let warning : Diagnostic := ⟨2, 1, "second", .warning, none, none, none, none, none, none⟩
    let error : Diagnostic :=
      ⟨1, 15, "first", .error, some "RC-LINE-ALONE", some "Move it.", some 3, none, none, none⟩
    (∀ d ∈ [warning, error], d.severity = .error ∨ d.severity = .warning) ∧
      FreeOfEscapes "A" content [warning, error] ∧
      (∀ color, Composes "A" content [warning, error] color) ∧
      (text? "A" content [warning, error] true).map uncolored =
        text? "A" content [warning, error] false := by
  intro content warning error
  have hgraded : ∀ d ∈ [warning, error], d.severity = .error ∨ d.severity = .warning := by
    simp [warning, error]
  have hfree : FreeOfEscapes "A" content [warning, error] := by
    refine ⟨by decide, by decide, ?_⟩
    intro d hd
    rcases List.mem_pair.mp hd with rfl | rfl
    · exact ⟨by decide, by simp [warning], by simp [warning]⟩
    · refine ⟨by decide, ?_, ?_⟩
      · rintro _ ⟨rfl⟩
        decide
      · rintro _ ⟨rfl⟩
        decide
  have hreport : (∀ color, Composes "A" content [warning, error] color) ∧ _ :=
    report_composes hgraded
  exact ⟨hgraded, hfree, hreport.1, hreport.2 hfree⟩

end ClosingBrace.Report
