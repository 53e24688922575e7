import ClosingBrace.Proofs.Lint.Severity
import ClosingBrace.Proofs.Lint.Coverage
import ClosingBrace.Proofs.Number.Bounds
import ClosingBrace.Proofs.Report.Rows
import ClosingBrace.Proofs.Tree.Displaced
import ClosingBrace.Proofs.Tree.Documents
import ClosingBrace.Proofs.Tree.Sources

/-!
# Numbers and lines of a report

A tree may have nodes on lines that its source does not have. A report brings such a line to the
nearest end of the source for the texts that it quotes, but not for the numbers in front of them,
while the tree has an empty text for every line outside the source. So the report and the tree agree
on the quoted rows of a diagnostic when its line is one of the source; otherwise they agree only if
the rows happen to be empty.

## Main statements

* `Config.lineAt_of_lint`: every diagnostic stands on the line of a node.
* `agrees_inside`, `agrees_beyond_iff`: the quoted rows inside the source and beyond it.
* `rows_agree_iff`: when the quoted rows are those of the tree.
* `rows_disagree_past_source`: a row that shows the text of another line.
-/

namespace ClosingBrace

/-! ## Where diagnostics stand -/

theorem Tree.lt_of_line {t : Tree} {h : Handle} {line : Number} (hline : t.line h = .ok line) :
    h < t.size ∧ line = t.lineAt h := by
  by_cases hh : h < t.size
  · rw [line_of_lt hh] at hline
    exact ⟨hh, (Except.ok.inj hline).symm⟩
  · rw [Tree.line, node_of_not_lt hh] at hline
    cases hline

theorem BraceOptions.lineAt_of_check {t : Tree} (hall : t.All Placed) {options : BraceOptions}
    {h : Handle} {d : Diagnostic} (hcheck : options.rule.check t h = .ok (some d)) :
    ∃ node < t.size, d.line = t.lineAt node := by
  obtain ⟨answer, -, hcheck⟩ := bind_eq_ok_iff.mp hcheck
  cases answer with
  | none => cases hcheck
  | some finding =>
      obtain ⟨told, htold, hcheck⟩ := bind_eq_ok_iff.mp hcheck
      cases hcheck
      obtain ⟨line, hline, htold⟩ := bind_eq_ok_iff.mp htold
      obtain ⟨column, -, htold⟩ := bind_eq_ok_iff.mp htold
      obtain ⟨hright, rfl⟩ := Tree.lt_of_line hline
      obtain ⟨⟨hwhole, hpos⟩, -⟩ := hall finding.right hright
      have hkept := Diagnostic.coerce_of_positive (Number.isFinite_of_isWhole hwhole) hpos 1
      refine ⟨finding.right, hright, ?_⟩
      rw [← Except.ok.inj htold, Diagnostic.place, Option.getD_none, hkept]

/-- **Every diagnostic stands on the line of a node.** -/
theorem Config.lineAt_of_lint {t : Tree} (hall : t.All Placed) {config : Config}
    {ds : List Diagnostic} (hlint : config.lint t = .ok ds) {d : Diagnostic} (hd : d ∈ ds) :
    ∃ node < t.size, d.line = t.lineAt node := by
  obtain ⟨rules, hrules, hrun⟩ := bind_eq_ok_iff.mp hlint
  obtain ⟨made, -, rfl⟩ := createRules_eq_ok (mapError_eq_ok_iff.mp hrules)
  obtain ⟨rule, hrule, node, hcheck⟩ := Rule.reported_of_run (mapError_eq_ok_iff.mp hrun) hd
  obtain ⟨options, -, rfl⟩ := List.mem_map.mp hrule
  exact BraceOptions.lineAt_of_check hall hcheck

namespace Report

variable {lines : List String} {d : Diagnostic} {line : Number} {i : Nat}

/-! ## Quoted rows -/

/-- The block of a diagnostic quotes these rows, each a number and a text, in this order; the caret
row stands below the one with the number of the line. -/
def QuotesRows (file : String) (lines : List String) (d : Diagnostic)
    (rows : List (Number × String)) : Prop :=
  ∃ above text below, rows = above ++ (d.line, text) :: below ∧
    block file lines false d =
      [heading false d, "at " ++ file ++ ":" ++ d.line.text ++ ":" ++ d.column.text] ++
        above.map (fun row => sourceRow (numberWidth lines) row.1 row.2) ++
        [sourceRow (numberWidth lines) d.line text, caretRow false (numberWidth lines) d] ++
        below.map (fun row => sourceRow (numberWidth lines) row.1 row.2) ++ hintRows d.hint ++ [""]

/-- The rows that are quoted for a line when its place is taken to be `i`. -/
def rowsAt (lines : List String) (line : Number) (i : Nat) : List (Number × String) :=
  (lineAbove? lines i).toList.map (line - 1, ·) ++
    (line, lines[i]?.getD "") :: lines[i + 1]?.toList.map (line + 1, ·)

theorem mem_rowsAt_iff {row : Number × String} : row ∈ rowsAt lines line i ↔
    (∃ text, lineAbove? lines i = some text ∧ (line - 1, text) = row) ∨
      row = (line, lines[i]?.getD "") ∨
        ∃ text, lines[i + 1]? = some text ∧ (line + 1, text) = row := by
  simp only [rowsAt, List.mem_append, List.mem_cons, List.mem_map, Option.mem_toList]

theorem map_toList (width : Nat) (n : Number) (text : Option String) :
    (text.toList.map (n, ·)).map (fun row => sourceRow width row.1 row.2) =
      neighbourRows width n text := by
  cases text <;> rfl

theorem quotesRows_rowsAt (hlimit : lines.length ≤ Number.wholeLimit) (hi : i < lines.length)
    (hplace : placeOf lines d.line = .ofNat i) (file : String) :
    QuotesRows file lines d (rowsAt lines d.line i) := by
  refine ⟨_, _, _, rfl, ?_⟩
  rw [map_toList, map_toList, block_eq hlimit hi hplace, List.getElem?_eq_getElem hi,
    Option.getD_some]

/-! ## Lines beyond the source -/

/-- The line is behind the last one, and the line above it is the last one or behind it, too. -/
structure Beyond (lines : List String) (line : Number) : Prop where
  behind : .ofNat lines.length < line
  place : (lines.length : Rat) ≤ (line - 1).toRat
  prior : line - 1 = .ofNat lines.length ∨ (lines.length : Rat) ≤ (line - 1 - 1).toRat

theorem beyond_ofNat {n : Nat} (hn : n + 1 ≤ Number.wholeLimit) (h : lines.length ≤ n) :
    Beyond lines (.ofNat (n + 1)) := by
  refine ⟨?_, ?_, ?_⟩
  · rw [Number.ofNat_lt_ofNat (by omega) hn]
    exact Nat.lt_succ_of_le h
  · rw [Number.ofNat_sub_one hn, Number.toRat_ofNat_of_small (Nat.le_of_succ_le hn)]
    exact Nat.cast_le.mpr h
  · rw [Number.ofNat_sub_one hn]
    rcases h.eq_or_lt with heq | hlt
    · exact .inl (congrArg Number.ofNat heq.symm)
    · obtain ⟨m, rfl⟩ : ∃ m, n = m + 1 := ⟨n - 1, by omega⟩
      rw [Number.ofNat_sub_one (Nat.le_of_succ_le hn), Number.toRat_ofNat_of_small (by omega)]
      exact .inr (Nat.cast_le.mpr (Nat.le_of_lt_succ hlt))

theorem beyond_of_huge (hlimit : lines.length ≤ 2 ^ 51) (h : line.Huge) : Beyond lines line := by
  have hlength : (lines.length : Rat) ≤ (2 ^ 51 : Nat) := Nat.cast_le.mpr hlimit
  refine ⟨?_, ?_, .inr (hlength.trans h.le_sub_two)⟩
  · have hsmall : lines.length ≤ Number.wholeLimit := hlimit.trans (by decide)
    rw [Number.lt_iff, Number.toRat_ofNat_of_small hsmall]
    exact (Nat.cast_le.mpr hsmall).trans_lt h
  · calc (lines.length : Rat)
        _ ≤ (2 ^ 51 : Nat) := hlength
        _ ≤ (2 ^ 52 : Nat) := Nat.cast_le.mpr (by decide)
        _ ≤ (line - 1).toRat := h.le_sub_one

/-- The line of a diagnostic is one of the source, or beyond it. -/
theorem inside_or_beyond (hlimit : lines.length ≤ 2 ^ 51) (hwhole : line.isWhole = true)
    (hpos : 0 < line) : (∃ i < lines.length, line = .ofNat (i + 1)) ∨ Beyond lines line := by
  rcases Number.small_or_huge hwhole hpos with ⟨n, hn, rfl⟩ | hhuge
  · rcases Nat.lt_or_ge n lines.length with hlt | hge
    · exact .inl ⟨n, hlt, rfl⟩
    · exact .inr (beyond_ofNat hn hge)
  · exact .inr (beyond_of_huge hlimit hhuge)

/-- A line beyond the source is taken to be the last one. -/
theorem Beyond.placeOf_eq (h : Beyond lines line) (hlimit : lines.length ≤ Number.wholeLimit)
    (hany : lines ≠ []) : placeOf lines line = .ofNat (lines.length - 1) := by
  have hpos := List.length_pos_iff.mpr hany
  have hlast : Number.ofNat (lines.length - 1) < line - 1 := by
    rw [Number.lt_iff, Number.toRat_ofNat_of_small (by omega)]
    exact (Nat.cast_lt.mpr (by omega)).trans_le h.place
  have hfirst : ¬ Number.ofNat (lines.length - 1) < 0 := Number.not_ofNat_lt_zero (by omega)
  unfold placeOf
  simp only [if_pos hlast, if_neg hfirst]

/-! ## The lines of a tree -/

section Tree
variable {t : Tree} (hlines : t.lines = lines.toArray)

include hlines

/-- A line of the source is that of the tree. -/
theorem sourceLine_inside (hlimit : lines.length ≤ Number.wholeLimit) {text : String}
    (htext : lines[i]? = some text) : t.sourceLine (.ofNat (i + 1)) = text := by
  have hi := (List.getElem?_eq_some_iff.mp htext).1
  rw [Tree.sourceLine_ofNat t (Nat.le_trans hi hlimit), hlines, List.getElem?_toArray, htext,
    Option.getD_some]

/-- Behind the last line the tree has none. -/
theorem sourceLine_behind (h : (lines.length : Rat) ≤ (line - 1).toRat) :
    t.sourceLine line = "" := by
  cases hplace : (line - 1).toNat? with
  | none => exact Tree.sourceLine_of_no_index t hplace
  | some k =>
      rw [Number.toRat_of_toNat? hplace, Nat.cast_le] at h
      rw [Tree.sourceLine_of_index t hplace, hlines, List.getElem?_toArray,
        List.getElem?_eq_none h, Option.getD_none]

/-- **Inside the source** the quoted rows are those of the tree. -/
theorem agrees_inside (hlimit : lines.length ≤ Number.wholeLimit) (hi : i < lines.length)
    {row : Number × String} (hrow : row ∈ rowsAt lines (.ofNat (i + 1)) i) :
    t.sourceLine row.1 = row.2 := by
  rw [mem_rowsAt_iff, Number.ofNat_sub_one (Nat.le_trans hi hlimit)] at hrow
  rcases hrow with ⟨text, htext, rfl⟩ | rfl | ⟨text, htext, rfl⟩
  · cases i with
    | zero => cases htext
    | succ j => exact sourceLine_inside hlines hlimit htext
  · rw [List.getElem?_eq_getElem hi]
    exact sourceLine_inside hlines hlimit (List.getElem?_eq_getElem hi)
  · have hnext := (List.getElem?_eq_some_iff.mp htext).1
    rw [Number.ofNat_add_one (Nat.le_trans hnext hlimit)]
    exact sourceLine_inside hlines hlimit htext

/-- **Beyond the source** the quoted rows are those of the tree only if they are empty. -/
theorem agrees_beyond_iff (hlimit : lines.length ≤ Number.wholeLimit) (hany : lines ≠ [])
    (h : Beyond lines line) :
    (∀ row ∈ rowsAt lines line (lines.length - 1), t.sourceLine row.1 = row.2) ↔
      ∀ row ∈ rowsAt lines line (lines.length - 1), row.2 = "" := by
  have hcount : lines.length - 1 + 1 = lines.length :=
    Nat.sub_add_cancel (List.length_pos_iff.mpr hany)
  have hlast : (line, lines[lines.length - 1]?.getD "") ∈ rowsAt lines line (lines.length - 1) :=
    mem_rowsAt_iff.mpr (.inr (.inl rfl))
  have hbehind : t.sourceLine line = "" := sourceLine_behind hlines h.place
  -- The row above may name the last line, so its text is empty if that of the last line is.
  have hempty : lines[lines.length - 1]?.getD "" = "" →
      ∀ row ∈ rowsAt lines line (lines.length - 1), t.sourceLine row.1 = "" := by
    intro hend row hrow
    rw [mem_rowsAt_iff, hcount, List.getElem?_eq_none (Nat.le_refl _)] at hrow
    rcases hrow with ⟨text, -, rfl⟩ | rfl | ⟨text, htext, rfl⟩
    · rcases h.prior with hprior | hprior
      · have hlt : lines.length - 1 < lines.length := by omega
        rw [List.getElem?_eq_getElem hlt, Option.getD_some] at hend
        rw [hprior, ← hcount]
        exact (sourceLine_inside hlines hlimit (List.getElem?_eq_getElem hlt)).trans hend
      · exact sourceLine_behind hlines hprior
    · exact hbehind
    · cases htext
  constructor
  · intro hagree row hrow
    have hend := (hagree _ hlast).symm.trans hbehind
    rw [← hagree row hrow, hempty hend row hrow]
  · intro hnone row hrow
    rw [hempty (hnone _ hlast) row hrow, hnone row hrow]

end Tree

end Report

/-! ## Agreement -/

/-- **When a report and a tree agree.** Let a document be loaded and its source within the limit on
the length of a text. The rows that a report quotes for a diagnostic are the lines that the tree has
for their numbers if the line of the diagnostic is one of the source, and else only if all of them
are empty. -/
theorem rows_agree_iff {data : Option Json} {name : String} {loaded : LoadedTree} {config : Config}
    {ds : List Diagnostic} {d : Diagnostic} (hload : Document.load data name = .ok loaded)
    (hsource : (Text.units loaded.source).length ≤ Report.longest)
    (hlint : config.lint loaded.tree = .ok ds) (hd : d ∈ ds) (file : String) :
    ∃ rows, Report.QuotesRows file (Text.splitLines loaded.source) d rows ∧
      ((∀ row ∈ rows, loaded.tree.sourceLine row.1 = row.2) ↔
        d.line ≤ .ofNat (Text.splitLines loaded.source).length ∨ ∀ row ∈ rows, row.2 = "") := by
  obtain ⟨-, -, hall⟩ := Document.tree_of_load hload
  have hlines := Document.lines_of_load hload
  obtain ⟨node, hnode, hline⟩ := Config.lineAt_of_lint hall hlint hd
  obtain ⟨⟨hwhole, hpos⟩, -⟩ := hall node hnode
  rw [← hline] at hwhole hpos
  have hany := Text.splitLines_ne_nil loaded.source
  have hcount : (Text.splitLines loaded.source).length ≤ 2 ^ 51 :=
    calc _
      _ ≤ (Text.units loaded.source).length + 1 := Text.length_splitLines_le loaded.source
      _ ≤ Report.longest + 1 := Nat.succ_le_succ hsource
      _ ≤ 2 ^ 51 := by decide
  have hlimit : (Text.splitLines loaded.source).length ≤ Number.wholeLimit :=
    hcount.trans (by decide)
  rcases Report.inside_or_beyond hcount hwhole hpos with ⟨i, hi, hinside⟩ | hbeyond
  · have hplace := hinside ▸ Report.placeOf_ofNat hlimit hi
    refine ⟨_, Report.quotesRows_rowsAt hlimit hi hplace file, ?_⟩
    have hle : d.line ≤ .ofNat (Text.splitLines loaded.source).length := by
      rw [hinside, Number.ofNat_le_ofNat (Nat.le_trans hi hlimit) hlimit]
      exact hi
    refine iff_of_true (fun row hrow => ?_) (.inl hle)
    rw [hinside] at hrow
    exact Report.agrees_inside hlines hlimit hi hrow
  · have hlast := Nat.sub_lt (List.length_pos_iff.mpr hany) Nat.one_pos
    refine ⟨_, Report.quotesRows_rowsAt hlimit hlast (hbeyond.placeOf_eq hlimit hany) file, ?_⟩
    rw [Report.agrees_beyond_iff hlines hlimit hany hbeyond]
    exact (or_iff_right (not_le.mpr hbeyond.behind)).symm

/-- An if statement that ends in the line of its last call. -/
theorem rows_agree_iff_inside_source :
    let source := "if (a) \x7b\n  b(); \x7d"
    let outline : Outline := .node .ifStatement 1 0
      [.node .statementList 1 7 [.node .methodCall 2 3 [], .node .rightCurly 2 7 []]]
    let data : Json := .object [("source", .string source), ("root", Document.write outline)]
    let loaded : LoadedTree := ⟨"A.java", source, Tree.ofOutline source outline⟩
    let d := Finding.told .error 2 ⟨.lineBreakBefore, 3, 8⟩
    Document.load (some data) "A.java" = .ok loaded ∧
      Config.standard.lint loaded.tree = .ok [d] ∧
      ∃ rows, Report.QuotesRows "A.java" (Text.splitLines source) d rows ∧
        ((∀ row ∈ rows, loaded.tree.sourceLine row.1 = row.2) ↔
          d.line ≤ .ofNat (Text.splitLines source).length ∨ ∀ row ∈ rows, row.2 = "") := by
  intro source outline data loaded d
  have hplaced : outline.All Placed := by
    simp only [outline, Outline.All, Outline.AllOf, Placed]
    decide +kernel
  have hload : Document.load (some data) "A.java" = .ok loaded :=
    Document.load_write source "A.java" hplaced
  have hrules : Config.standard.createRules =
      .ok [(⟨.same, Kind.defaultConstructs, .error⟩ : BraceOptions).rule] := rfl
  have hlint : Config.standard.lint loaded.tree = .ok [d] :=
    Config.lint_of_run hrules (by decide +kernel)
  exact ⟨hload, hlint,
    rows_agree_iff hload (by decide +kernel) hlint (List.mem_singleton_self d) "A.java"⟩

/-- The same statement over the same source, but its last line is said to be the fifth. The report
quotes the second line as the fifth, which the tree does not have. -/
theorem rows_disagree_past_source :
    let source := "if (a) \x7b\n  b(); \x7d"
    let outline : Outline := .node .ifStatement 1 0
      [.node .statementList 1 7 [.node .methodCall 5 3 [], .node .rightCurly 5 7 []]]
    let data : Json := .object [("source", .string source), ("root", Document.write outline)]
    let loaded : LoadedTree := ⟨"A.java", source, Tree.ofOutline source outline⟩
    let d := Finding.told .error 5 ⟨.lineBreakBefore, 3, 8⟩
    let rows : List (Number × String) := [(4, "if (a) \x7b"), (5, "  b(); \x7d")]
    Document.load (some data) "A.java" = .ok loaded ∧
      Config.standard.lint loaded.tree = .ok [d] ∧
      Report.QuotesRows "A.java" (Text.splitLines source) d rows ∧
      ¬ ∀ row ∈ rows, loaded.tree.sourceLine row.1 = row.2 := by
  intro source outline data loaded d rows
  have hplaced : outline.All Placed := by
    simp only [outline, Outline.All, Outline.AllOf, Placed]
    decide +kernel
  have hload : Document.load (some data) "A.java" = .ok loaded :=
    Document.load_write source "A.java" hplaced
  have hrules : Config.standard.createRules =
      .ok [(⟨.same, Kind.defaultConstructs, .error⟩ : BraceOptions).rule] := rfl
  have hlint : Config.standard.lint loaded.tree = .ok [d] :=
    Config.lint_of_run hrules (by decide +kernel)
  have hrows : Report.rowsAt (Text.splitLines source) d.line 1 = rows := by decide +kernel
  have hquotes : Report.QuotesRows "A.java" (Text.splitLines source) d rows := by
    rw [← hrows]
    exact Report.quotesRows_rowsAt (by decide +kernel) (by decide +kernel) (by decide +kernel) _
  refine ⟨hload, hlint, hquotes, fun hagree => ?_⟩
  exact absurd (hagree (5, "  b(); \x7d") (by decide +kernel)) (by decide +kernel)

end ClosingBrace
