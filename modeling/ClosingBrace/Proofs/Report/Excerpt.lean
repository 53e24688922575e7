import ClosingBrace.Proofs.Report.Rows

/-!
# What a report quotes

A block shows the place of its diagnostic in an excerpt of the content: the line in question between
its neighbours, each behind its number, and below it carets from the column on. All gutters are
equally long, so the first caret stands under the code unit that the column counts.

## Main statements

* `StandsAt.shows`: the rows of a block show the place of its diagnostic.
* `report_shows_place`: a report shows the place of each diagnostic that stands in the content.
-/

namespace ClosingBrace.Report

variable {lines : List String} {d : Diagnostic} {n c : Nat} {length : Option Int}

/-! ## Excerpts -/

/-- The row quotes the line of that number: a gutter of `width` code units that names the number,
and then the line. -/
def Quotes (lines : List String) (width label : Nat) (row : String) : Prop :=
  ∃ blanks line, lines[label - 1]? = some line ∧ row = gutter blanks (toString label) ++ line ∧
    (Text.units (gutter blanks (toString label))).length = width

/-- The row marks `count` code units from `offset` on, behind a gutter of `width` code units that
names no number. -/
structure Marks (width offset count : Nat) (row : String) : Prop where
  text : ∃ blanks, row = gutter blanks "" ++ times offset ' ' ++ times count '^' ∧
    (Text.units (gutter blanks "")).length = width
  marked : ∀ i, (Text.units row)[i]? = some '^'.toNat ↔
    width + offset ≤ i ∧ i < width + offset + count

/-- The rows show line `n`, with `count` carets under its code units from `offset` on. -/
structure Shows (lines : List String) (width n offset count : Nat) (above : List String)
    (row carets : String) (below : List String) : Prop where
  quoted : Quotes lines width n row
  prior : if 1 < n then ∃ prior, above = [prior] ∧ Quotes lines width (n - 1) prior else above = []
  next : if n < lines.length then ∃ next, below = [next] ∧ Quotes lines width (n + 1) next
    else below = []
  marks : Marks width offset count carets
  /-- The units of the line stand behind the gutter. -/
  under : ∀ line, lines[n - 1]? = some line →
    ∀ i, (Text.units row)[width + i]? = (Text.units line)[i]?

/-- The diagnostic stands on line `n` of the content, at column `c`; its length is given, too, or
left out. -/
structure StandsAt (lines : List String) (d : Diagnostic) (n c : Nat) (length : Option Int) :
    Prop where
  line : d.line.toRat = n
  first : 1 ≤ n
  last : n ≤ lines.length
  column : d.column.toRat = c
  start : 1 ≤ c
  length : d.length.map Number.toRat = length.map fun k => (k : Rat)

/-- How many carets a length asks for. -/
def caretsFor (length : Option Int) : Nat := (max 1 (length.getD 1)).toNat

/-! ## Quoted rows -/

/-- The number in front of a row is that of its line. -/
theorem quotes_sourceRow (hlimit : lines.length ≤ Number.wholeLimit) {i : Nat} {line : String}
    (hline : lines[i]? = some line) :
    Quotes lines (gutterLength lines) (i + 1)
      (sourceRow (numberWidth lines) (.ofNat (i + 1)) line) := by
  have hi : i + 1 ≤ lines.length := (List.getElem?_eq_some_iff.mp hline).1
  exact ⟨_, line, hline, sourceRow_eq (Nat.le_trans hi hlimit) _ line, length_gutter_of_le hi⟩

theorem quotes_prior (hlimit : lines.length ≤ Number.wholeLimit) {i : Nat}
    (hi : i < lines.length) :
    let above := neighbourRows (numberWidth lines) (.ofNat i) (lineAbove? lines i)
    if 1 < i + 1 then ∃ prior, above = [prior] ∧ Quotes lines (gutterLength lines) (i + 1 - 1) prior
    else above = [] := by
  cases i with
  | zero => rfl
  | succ j =>
      have hline : lines[j]? = some lines[j] := List.getElem?_eq_getElem (Nat.lt_of_succ_lt hi)
      rw [if_pos (Nat.succ_lt_succ (Nat.succ_pos j)), lineAbove?, hline]
      exact ⟨_, rfl, quotes_sourceRow hlimit hline⟩

theorem quotes_next (hlimit : lines.length ≤ Number.wholeLimit) {i : Nat} :
    let below := neighbourRows (numberWidth lines) (.ofNat (i + 1) + 1) lines[i + 1]?
    if i + 1 < lines.length then
      ∃ next, below = [next] ∧ Quotes lines (gutterLength lines) (i + 1 + 1) next
    else below = [] := by
  intro below
  split
  · next hlt =>
      have hline := List.getElem?_eq_getElem hlt
      have hbelow : below =
          [sourceRow (numberWidth lines) (.ofNat (i + 1 + 1)) lines[i + 1]] := by
        simp only [below, hline, neighbourRows, Number.ofNat_add_one (Nat.le_trans hlt hlimit)]
      exact ⟨_, hbelow, quotes_sourceRow hlimit hline⟩
  · next hge =>
      simp only [below, List.getElem?_eq_none (Nat.le_of_not_lt hge), neighbourRows]

theorem Quotes.getElem?_units {width label : Nat} {row line : String}
    (h : Quotes lines width label row) (hline : lines[label - 1]? = some line) (i : Nat) :
    (Text.units row)[width + i]? = (Text.units line)[i]? := by
  obtain ⟨blanks, quoted, hquoted, rfl, rfl⟩ := h
  obtain rfl : quoted = line := Option.some.inj (hquoted.symm.trans hline)
  rw [Text.units_append, List.getElem?_append_right (Nat.le_add_right _ _), Nat.add_sub_cancel_left]

theorem marks_caretRow {width offset count : Nat}
    (hpad : (caretPad d).truncate.toNat = offset) (hcount : (caretCount d).truncate.toNat = count) :
    Marks (width + 5) offset count (caretRow false width d) := by
  have hwidth : (Text.units (gutter width "")).length = width + 5 := by
    rw [length_units_gutter width narrow_empty, String.length_empty, Nat.add_zero]
  rw [caretRow_plain, hpad, hcount]
  exact ⟨⟨width, rfl, hwidth⟩, fun i => by rw [getElem?_marked, hwidth]⟩

/-! ## Positions -/

theorem longest_le : longest + 1 ≤ Number.wholeLimit := by decide

theorem countLimit?_ofNat (hn : n ≤ longest) : countLimit? (.ofNat n) = none := by
  have hlimit : n ≤ Number.wholeLimit := by
    have hlongest := longest_le
    omega
  have hfinite := Number.isFinite_of_isWhole (Number.isWhole_ofNat hlimit)
  rw [countLimit?, if_pos hfinite, Number.truncate_ofNat hlimit, if_neg (Nat.not_lt.mpr hn)]

/-- A length below one is taken to be one. -/
theorem ofNat_caretsFor {x : Number} {k : Int} (hx : x.toRat = k)
    (hmarks : caretsFor (some k) ≤ longest) :
    (if x < 1 then 1 else x) = .ofNat (caretsFor (some k)) := by
  have hshort : x < 1 ↔ k < 1 := by
    rw [Number.lt_iff, hx, Number.toRat_one]
    exact_mod_cast Iff.rfl
  have hcount : caretsFor (some k) = (max 1 k).toNat := rfl
  have hlongest := longest_le
  rw [hcount] at hmarks ⊢
  split
  · next hlt =>
      rw [max_eq_left (hshort.mp hlt).le]
      rfl
  · next hge =>
      have hk : 1 ≤ k := not_lt.mp fun hlt => hge (hshort.mpr hlt)
      rw [max_eq_right hk] at hmarks ⊢
      apply Number.eq_ofNat
      · omega
      · rw [hx, ← Int.cast_natCast, Int.toNat_of_nonneg (by omega)]

namespace StandsAt

theorem caretPad_eq (h : StandsAt lines d n c length) (hc : c - 1 ≤ longest) :
    caretPad d = .ofNat (c - 1) := by
  have hlimit : c ≤ Number.wholeLimit := by
    have hlongest := longest_le
    omega
  have hpad : d.column - 1 = .ofNat (c - 1) := by
    obtain ⟨k, rfl⟩ : ∃ k, c = k + 1 := ⟨c - 1, (Nat.sub_add_cancel h.start).symm⟩
    rw [Number.eq_ofNat hlimit h.column, Number.ofNat_sub_one hlimit, Nat.add_sub_cancel]
  have hfirst : ¬ Number.ofNat (c - 1) < 0 := Number.not_ofNat_lt_zero (by omega)
  rw [caretPad, hpad, if_neg hfirst]

theorem caretCount_eq (h : StandsAt lines d n c length) (hmarks : caretsFor length ≤ longest) :
    caretCount d = .ofNat (caretsFor length) := by
  have hlength := h.length
  unfold caretCount
  cases hd : d.length with
  | none =>
      rw [hd] at hlength
      cases length with
      | none => rfl
      | some k => cases hlength
  | some x =>
      rw [hd] at hlength
      cases length with
      | none => cases hlength
      | some k =>
          exact ofNat_caretsFor (Option.some.inj hlength) hmarks

theorem rowLimit?_eq_none (h : StandsAt lines d n c length) (hc : c - 1 ≤ longest)
    (hmarks : caretsFor length ≤ longest) : rowLimit? d = none := by
  rw [rowLimit?, h.caretPad_eq hc, h.caretCount_eq hmarks, countLimit?_ofNat hc,
    countLimit?_ofNat hmarks, Option.or_none]

/-- **The rows of a block** show the place of its diagnostic. -/
theorem shows (h : StandsAt lines d n c length) (hlimit : lines.length ≤ Number.wholeLimit)
    (hc : c - 1 ≤ longest) (hmarks : caretsFor length ≤ longest) (file : String) :
    ∃ above row carets below,
      block file lines false d =
        [heading false d, "at " ++ file ++ ":" ++ toString n ++ ":" ++ toString c] ++
          above ++ [row, carets] ++ below ++ hintRows d.hint ++ [""] ∧
      Shows lines (gutterLength lines) n (c - 1) (caretsFor length) above row carets below := by
  obtain ⟨i, rfl⟩ : ∃ i, n = i + 1 := ⟨n - 1, (Nat.sub_add_cancel h.first).symm⟩
  have hi : i < lines.length := h.last
  have hlongest := longest_le
  have hline : d.line = .ofNat (i + 1) := Number.eq_ofNat (Nat.le_trans hi hlimit) h.line
  have hcolumn : d.column = .ofNat c := Number.eq_ofNat (by omega) h.column
  have hplace : placeOf lines d.line = .ofNat i := by rw [hline, placeOf_ofNat hlimit hi]
  have hblock := block_eq hlimit hi hplace file false
  rw [hline, hcolumn, Number.text_ofNat (Nat.le_trans hi hlimit), Number.text_ofNat (by omega),
    Number.ofNat_sub_one (Nat.le_trans hi hlimit)] at hblock
  have hquoted := quotes_sourceRow hlimit (List.getElem?_eq_getElem hi)
  have hpad := Number.truncate_ofNat (show c - 1 ≤ Number.wholeLimit by omega)
  have hcount := Number.truncate_ofNat (show caretsFor length ≤ Number.wholeLimit by omega)
  rw [← h.caretPad_eq hc] at hpad
  rw [← h.caretCount_eq hmarks] at hcount
  exact ⟨_, _, _, _, hblock,
    { quoted := hquoted
      prior := quotes_prior hlimit hi
      next := quotes_next hlimit
      marks := marks_caretRow hpad hcount
      under := fun line hline => hquoted.getElem?_units hline }⟩

end StandsAt

/-- **A report shows the place of a diagnostic.** Let a report on any content be within the limits on
the length of a text: the content is, and so are the rows of carets. Every error and warning that
stands on a line of the content is shown with that line between its neighbours, and its carets stand
under its column. -/
theorem report_shows_place {file content : String} {ds earlier later : List Diagnostic}
    (hcontent : (Text.units content).length ≤ longest) (hshown : shown ds = earlier ++ d :: later)
    (hothers : ∀ other ∈ earlier ++ later, rowLimit? other = none)
    (hd : StandsAt (Text.splitLines content) d n c length) (hc : c - 1 ≤ longest)
    (hmarks : caretsFor length ≤ longest) :
    ∃ width above row carets below,
      text? file content ds false = .ok ("\n".intercalate (
        earlier.flatMap (block file (Text.splitLines content) false) ++
        ([heading false d, "at " ++ file ++ ":" ++ toString n ++ ":" ++ toString c] ++
          above ++ [row, carets] ++ below ++ hintRows d.hint ++ [""]) ++
        later.flatMap (block file (Text.splitLines content) false))) ∧
      Shows (Text.splitLines content) width n (c - 1) (caretsFor length) above row carets below := by
  have hlimit : (Text.splitLines content).length ≤ Number.wholeLimit := by
    have hlines := Text.length_splitLines_le content
    have hlongest := longest_le
    omega
  have hmade : limit? ds = none := by
    rw [limit?, hshown, List.findSome?_eq_none_iff]
    intro other hother
    rw [List.mem_append, List.mem_cons] at hother
    rcases hother with hother | rfl | hother
    · exact hothers other (List.mem_append_left _ hother)
    · exact hd.rowLimit?_eq_none hc hmarks
    · exact hothers other (List.mem_append_right _ hother)
  obtain ⟨above, row, carets, below, hblock, hshows⟩ := hd.shows hlimit hc hmarks file
  refine ⟨_, above, row, carets, below, ?_, hshows⟩
  rw [text?, hmade, text, hshown, if_neg (by simp), List.flatMap_append, List.flatMap_cons, hblock,
    ← List.append_assoc]

/-- A warning on the ninth of ten lines, where the numbers of the rows differ in their digits, behind
an error on the first. -/
theorem report_shows_place_on_ninth_line :
    let content := "1\n2\n3\n4\n5\n6\n7\n8\n\x7d else\n10"
    let before : Diagnostic := ⟨1, 1, "first", .error, none, none, none, none, none, none⟩
    let d : Diagnostic := ⟨9, 3, "ninth", .warning, none, none, some 4, none, none, none⟩
    Text.splitLines content = ["1", "2", "3", "4", "5", "6", "7", "8", "\x7d else", "10"] ∧
      StandsAt (Text.splitLines content) d 9 3 (some 4) ∧
      ∃ width above row carets below,
        text? "A" content [d, before] false = .ok ("\n".intercalate (
          [before].flatMap (block "A" (Text.splitLines content) false) ++
          ([heading false d, "at " ++ "A" ++ ":" ++ toString 9 ++ ":" ++ toString 3] ++
            above ++ [row, carets] ++ below ++ hintRows d.hint ++ [""]) ++
          [].flatMap (block "A" (Text.splitLines content) false))) ∧
        Shows (Text.splitLines content) width 9 (3 - 1) (caretsFor (some 4)) above row carets
          below := by
  intro content before d
  have hlines : Text.splitLines content =
      ["1", "2", "3", "4", "5", "6", "7", "8", "\x7d else", "10"] := by
    decide +kernel
  have hstands : StandsAt (Text.splitLines content) d 9 3 (some 4) :=
    { line := Number.toRat_ofNat_of_small (by decide)
      first := by decide
      last := by rw [hlines]; decide
      column := Number.toRat_ofNat_of_small (by decide)
      start := by decide
      length := congrArg some (Number.toRat_ofNat_of_small (by decide)) }
  have hothers : ∀ other ∈ [before] ++ [], rowLimit? other = none := by
    decide +kernel
  exact ⟨hlines, hstands, report_shows_place (by decide +kernel) (by decide +kernel) hothers hstands
    (by decide) (by decide)⟩

end ClosingBrace.Report
