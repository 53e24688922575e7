import ClosingBrace.Text.Lines

/-!
# Lines and their ends

A text is a list of lines with a line end between every two of them. Many lists of line ends could
be meant by a carriage return and a line feed side by side, so `Interleaves` adds the rule that the
two are one line end. With it there is one way to read a text as lines, and `splitLines` finds it:
the function and the relation determine each other. Hence it does not matter which line end joins
the lines of a text.

## Main statements

* `splitLines_eq_iff`: the lines of a text are those that it interleaves with line ends.
* `splitLines_join`: lines that are joined by any line end are found again.
-/

namespace ClosingBrace.Text

/-- What may end a line. -/
inductive LineEnd where
  | lineFeed
  | carriageReturn
  /-- A carriage return followed by a line feed. -/
  | both
deriving DecidableEq, Repr

def LineEnd.text : LineEnd → String
  | .lineFeed => "\n"
  | .carriageReturn => "\r"
  | .both => "\r\n"

/-- No line ends within these characters. -/
def Unbroken (cs : List Char) : Prop := ∀ c ∈ cs, c ≠ '\r' ∧ c ≠ '\n'

/-- The characters are those of the lines, with a line end between every two of them. A carriage
return is a line end of its own only if no line feed follows. -/
inductive InterleavesChars : List (List Char) → List Char → Prop
  | last {line : List Char} : Unbroken line → InterleavesChars [line] line
  | cons {line rest : List Char} {lines : List (List Char)} (e : LineEnd) : Unbroken line →
      (e = .carriageReturn → rest.head? ≠ some '\n') → InterleavesChars lines rest →
      InterleavesChars (line :: lines) (line ++ (e.text.toList ++ rest))

/-- The text is made of the lines, with a line end between every two of them. -/
def Interleaves (lines : List String) (s : String) : Prop :=
  InterleavesChars (lines.map String.toList) s.toList

/-- The lines as one text, with the same line end between every two of them. -/
def joinLines (e : LineEnd) (lines : List String) : String := e.text.intercalate lines

/-! ## From a text to its lines -/

theorem unbroken_nil : Unbroken [] := by
  intro c hc
  cases hc

theorem unbroken_iff_all {cs : List Char} :
    Unbroken cs ↔ (cs.all fun c => c != '\r' && c != '\n') = true := by
  simp [Unbroken]

theorem Unbroken.cons {c : Char} {cs : List Char} (hc : c ≠ '\r' ∧ c ≠ '\n') (hcs : Unbroken cs) :
    Unbroken (c :: cs) := by
  intro d hd
  rcases List.mem_cons.mp hd with rfl | hd
  · exact hc
  · exact hcs d hd

/-- A character in front of a text joins its first line. -/
theorem InterleavesChars.onFirstLine {c : Char} {lines : List (List Char)} {cs : List Char}
    (hc : c ≠ '\r' ∧ c ≠ '\n') (h : InterleavesChars lines cs) :
    InterleavesChars (Text.onFirstLine c lines) (c :: cs) := by
  cases h with
  | last hline => exact .last (hline.cons hc)
  | cons e hline hend hrest => exact .cons e (hline.cons hc) hend hrest

/-- **Every text is made of its lines.** -/
theorem interleaves_lineChars (cs : List Char) : InterleavesChars (lineChars cs) cs := by
  fun_induction lineChars cs with
  | case1 => exact .last unbroken_nil
  | case2 rest ih => exact .cons .both unbroken_nil LineEnd.noConfusion ih
  | case3 rest hrest ih =>
      -- Had a line feed followed, the case before would have applied.
      refine .cons .carriageReturn unbroken_nil (fun _ hhead => ?_) ih
      obtain ⟨later, rfl⟩ := List.head?_eq_some_iff.mp hhead
      exact hrest later rfl
  | case4 rest ih => exact .cons .lineFeed unbroken_nil LineEnd.noConfusion ih
  | case5 c rest _ hr hn ih => exact ih.onFirstLine ⟨hr, hn⟩

/-- Lines are made of characters of the text. -/
theorem InterleavesChars.mem_of_mem {lines : List (List Char)} {cs line : List Char} {c : Char}
    (h : InterleavesChars lines cs) (hline : line ∈ lines) (hc : c ∈ line) : c ∈ cs := by
  induction h with
  | last _ =>
      rw [List.mem_singleton.mp hline] at hc
      exact hc
  | cons e _ _ _ ih =>
      rcases List.mem_cons.mp hline with rfl | hline
      · exact List.mem_append_left _ hc
      · exact List.mem_append_right _ (List.mem_append_right _ (ih hline))

theorem mem_of_mem_splitLines {s line : String} {c : Char} (hline : line ∈ splitLines s)
    (hc : c ∈ line.toList) : c ∈ s.toList := by
  obtain ⟨cs, hcs, rfl⟩ := List.mem_map.mp hline
  rw [String.toList_ofList] at hc
  exact (interleaves_lineChars s.toList).mem_of_mem hcs hc

/-! ## From lines to their text -/

/-- The first line ends with the first line end. -/
theorem lineChars_append {line : List Char} (hline : Unbroken line) (e : LineEnd)
    {rest : List Char} (hend : e = .carriageReturn → rest.head? ≠ some '\n') :
    lineChars (line ++ (e.text.toList ++ rest)) = line :: lineChars rest := by
  induction line with
  | nil =>
      cases e with
      | lineFeed => rfl
      | both => rfl
      | carriageReturn =>
          show lineChars ('\r' :: rest) = _
          rw [lineChars]
          rintro later rfl
          exact hend rfl rfl
  | cons c line ih =>
      obtain ⟨hr, hn⟩ := hline c List.mem_cons_self
      have hrest : Unbroken line := fun d hd => hline d (List.mem_cons_of_mem _ hd)
      rw [List.cons_append, lineChars_cons _ hr hn, ih hrest]
      rfl

/-- There is no other way to read a text as lines. -/
theorem InterleavesChars.lineChars_eq {lines : List (List Char)} {cs : List Char}
    (h : InterleavesChars lines cs) : lineChars cs = lines := by
  induction h with
  | last hline => exact lineChars_of_unbroken hline
  | cons e hline hend _ ih => rw [lineChars_append hline e hend, ih]

theorem lineChars_eq_iff {lines : List (List Char)} {cs : List Char} :
    lineChars cs = lines ↔ InterleavesChars lines cs := by
  constructor
  · rintro rfl
    exact interleaves_lineChars cs
  · exact InterleavesChars.lineChars_eq

/-- **The lines of a text** are those that it interleaves with line ends, and no others. -/
theorem splitLines_eq_iff {s : String} {lines : List String} :
    splitLines s = lines ↔ Interleaves lines s := by
  rw [Interleaves, ← lineChars_eq_iff, splitLines]
  constructor
  · rintro rfl
    simp [Function.comp_def]
  · intro h
    simp [h, Function.comp_def]

/-! ## Joined lines -/

theorem joinLines_cons (e : LineEnd) (line : String) {lines : List String} (hne : lines ≠ []) :
    (joinLines e (line :: lines)).toList =
      line.toList ++ (e.text.toList ++ (joinLines e lines).toList) := by
  simp [joinLines, String.intercalate_cons_of_ne_nil hne]

/-- Lines that are joined by carriage returns do not start with a line feed. -/
theorem head?_joinLines_ne {lines : List String} (hne : lines ≠ [])
    (hlines : ∀ line ∈ lines, Unbroken line.toList) :
    (joinLines .carriageReturn lines).toList.head? ≠ some '\n' := by
  obtain ⟨line, rest, rfl⟩ := List.exists_cons_of_ne_nil hne
  have hline := hlines line List.mem_cons_self
  by_cases hrest : rest = []
  · subst hrest
    intro hhead
    have hmem : '\n' ∈ line.toList := List.mem_of_head? (by simpa [joinLines] using hhead)
    exact (hline _ hmem).2 rfl
  · rw [joinLines_cons _ _ hrest]
    cases hcs : line.toList with
    | nil => simp [LineEnd.text]
    | cons c cs =>
        have hc := (hline c (hcs ▸ List.mem_cons_self)).2
        simpa using hc

/-- Joined lines interleave with their line end: a carriage return could only be taken together with
a line feed at the start of the next line, and there is none. -/
theorem interleaves_joinLines (e : LineEnd) {lines : List String} (hne : lines ≠ [])
    (hlines : ∀ line ∈ lines, Unbroken line.toList) : Interleaves lines (joinLines e lines) := by
  induction lines with
  | nil => exact absurd rfl hne
  | cons line rest ih =>
      have hline := hlines line List.mem_cons_self
      have hothers : ∀ line ∈ rest, Unbroken line.toList :=
        fun line h => hlines line (List.mem_cons_of_mem _ h)
      by_cases hrest : rest = []
      · subst hrest
        simpa [Interleaves, joinLines] using InterleavesChars.last hline
      · unfold Interleaves
        rw [joinLines_cons e line hrest]
        refine .cons e hline ?_ (ih hrest hothers)
        rintro rfl
        exact head?_joinLines_ne hrest hothers

/-- **Lines that are joined by any line end are found again.** -/
theorem splitLines_join (e : LineEnd) {lines : List String} (hne : lines ≠ [])
    (hlines : ∀ line ∈ lines, Unbroken line.toList) : splitLines (joinLines e lines) = lines :=
  splitLines_eq_iff.mpr (interleaves_joinLines e hne hlines)

end ClosingBrace.Text
