import ClosingBrace.Proofs.Number.Digits
import ClosingBrace.Report.Text

/-!
# Rows of a report

A block quotes the line at its place and the lines around it. Its rows begin with gutters, which are
equally long as long as the numbers in them have no more digits than the number of lines. The carets
stand behind the gutter and as many blanks as the column says.

## Main statements

* `length_gutter_of_le`: all gutters that name lines are equally long.
* `getElem?_marked`: which units of the caret row are carets.
* `block_eq`: the rows of a block, when the place is known.
-/

namespace ClosingBrace.Report

variable {lines : List String} {d : Diagnostic} {i n : Nat}

/-! ## Blanks and carets -/

theorem narrow_times {c : Char} (hc : c.toNat < 0x10000) (n : Nat) : Text.Narrow (times n c) := by
  intro d hd
  rw [times, String.toList_ofList] at hd
  rwa [List.eq_of_mem_replicate hd]

@[simp] theorem length_times (n : Nat) (c : Char) : (times n c).length = n := by
  rw [times, String.length_ofList, List.length_replicate]

theorem units_times {c : Char} (hc : c.toNat < 0x10000) (n : Nat) :
    Text.units (times n c) = List.replicate n c.toNat := by
  rw [(narrow_times hc n).units_eq, times, String.toList_ofList, List.map_replicate]

/-! ## Gutters -/

/-- What stands in front of a quoted line: its number, behind `blanks` blanks. -/
def gutter (blanks : Nat) (label : String) : String := "  " ++ times blanks ' ' ++ label ++ " | "

theorem narrow_empty : Text.Narrow "" := by
  intro c hc
  cases hc

theorem narrow_gutter (blanks : Nat) {label : String} (h : Text.Narrow label) :
    Text.Narrow (gutter blanks label) := by
  have hstart : Text.Narrow "  " := Text.narrow_iff_all.mpr (by decide)
  have hend : Text.Narrow " | " := Text.narrow_iff_all.mpr (by decide)
  exact ((hstart.append (narrow_times (by decide) blanks)).append h).append hend

theorem length_units_gutter (blanks : Nat) {label : String} (h : Text.Narrow label) :
    (Text.units (gutter blanks label)).length = blanks + label.length + 5 := by
  rw [(narrow_gutter blanks h).length_units]
  unfold gutter
  simp only [String.length_append, length_times]
  rw [show "  ".length = 2 by decide, show " | ".length = 3 by decide]
  omega

/-- How long the gutters are next to a text of so many lines. -/
def gutterLength (lines : List String) : Nat := numberWidth lines + 5

theorem sourceRow_eq (hn : n ≤ Number.wholeLimit) (width : Nat) (line : String) :
    sourceRow width (.ofNat n) line =
      gutter (width - (toString n).length) (toString n) ++ line := by
  simp only [sourceRow, numberCell, Number.text_ofNat hn, gutter, String.append_assoc]

/-- **The gutter of a row** is as long as all others if the number is that of a line. -/
theorem length_gutter_of_le (h : n ≤ lines.length) :
    (Text.units (gutter (numberWidth lines - (toString n).length) (toString n))).length =
      gutterLength lines := by
  have hdigits : (toString n).length ≤ numberWidth lines := length_toString_le h
  rw [length_units_gutter _ (narrow_toString n), gutterLength, Nat.sub_add_cancel hdigits]

/-! ## The caret row -/

theorem caretRow_plain (width : Nat) (d : Diagnostic) :
    caretRow false width d = gutter width "" ++ times (caretPad d).truncate.toNat ' ' ++
      times (caretCount d).truncate.toNat '^' := by
  rw [caretRow, paint_plain, gutter, String.append_empty]

theorem caret_notMem_gutter (blanks : Nat) : '^'.toNat ∉ Text.units (gutter blanks "") := by
  rw [(narrow_gutter blanks narrow_empty).units_eq]
  simp [gutter, times]

/-- **Which units of the caret row are carets.** -/
theorem getElem?_marked {blanks offset count : Nat} :
    (Text.units (gutter blanks "" ++ times offset ' ' ++ times count '^'))[i]? =
        some '^'.toNat ↔
      (Text.units (gutter blanks "")).length + offset ≤ i ∧
        i < (Text.units (gutter blanks "")).length + offset + count := by
  have hgutter := caret_notMem_gutter blanks
  rw [Text.units_append, Text.units_append, units_times (by decide), units_times (by decide)]
  generalize Text.units (gutter blanks "") = units at hgutter ⊢
  have hpad : ' '.toNat ≠ '^'.toNat := by decide
  generalize ' '.toNat = blank at hpad ⊢
  generalize '^'.toNat = caret at hpad hgutter ⊢
  have hleft : (units ++ List.replicate offset blank)[i]? ≠ some caret := by
    intro h
    rcases List.mem_append.mp (List.mem_of_getElem? h) with hmem | hmem
    · exact hgutter hmem
    · exact hpad (List.eq_of_mem_replicate hmem).symm
  rw [List.getElem?_append, List.length_append, List.length_replicate]
  split
  · next hlt => simp only [hleft, false_iff]; omega
  · next hge =>
      rw [List.getElem?_replicate]
      split
      · simp only [true_iff]; omega
      · simp only [reduceCtorEq, false_iff]; omega

/-! ## The quoted lines -/

/-- The line above the place `i`. -/
def lineAbove? (lines : List String) : Nat → Option String
  | 0 => none
  | i + 1 => lines[i]?

theorem lineAt?_of_toNat? {place : Number} (h : place.toNat? = some i) :
    lineAt? lines place = lines[i]? := by
  unfold lineAt?
  rw [h]

theorem lineAt?_ofNat (h : i ≤ Number.wholeLimit) : lineAt? lines (.ofNat i) = lines[i]? :=
  lineAt?_of_toNat? (Number.toNat?_ofNat h)

/-- A line of the content is at its own place. -/
theorem placeOf_ofNat (hlimit : lines.length ≤ Number.wholeLimit) (hi : i < lines.length) :
    placeOf lines (.ofNat (i + 1)) = .ofNat i := by
  have hlast : ¬ Number.ofNat (lines.length - 1) < .ofNat i := by
    rw [Number.ofNat_lt_ofNat (by omega) (by omega)]
    omega
  have hfirst : ¬ Number.ofNat i < 0 := Number.not_ofNat_lt_zero (by omega)
  unfold placeOf
  simp only [Number.ofNat_sub_one (Nat.le_trans hi hlimit), if_neg hlast, if_neg hfirst]

theorem lineAt?_before (hi : i ≤ Number.wholeLimit) :
    (if 0 < Number.ofNat i then lineAt? lines (.ofNat i - 1) else none) = lineAbove? lines i := by
  cases i with
  | zero => rfl
  | succ j =>
      have hj : j ≤ Number.wholeLimit := Nat.le_of_succ_le hi
      rw [if_pos ((Number.ofNat_pos hi).mpr (Nat.succ_pos j)), Number.ofNat_sub_one hi,
        lineAt?_ofNat hj]
      rfl

theorem lineAt?_after (hlimit : lines.length ≤ Number.wholeLimit)
    (hi : i + 1 ≤ Number.wholeLimit) :
    (if Number.ofNat i + 1 < .ofNat lines.length then lineAt? lines (.ofNat i + 1) else none) =
      lines[i + 1]? := by
  rw [Number.ofNat_add_one hi, lineAt?_ofNat hi]
  split
  · rfl
  · next hge =>
      rw [Number.ofNat_lt_ofNat hi hlimit] at hge
      rw [List.getElem?_eq_none (Nat.le_of_not_lt hge)]

/-- **The rows of a block**, which quotes the line at the place `i` and its neighbours. -/
theorem block_eq (hlimit : lines.length ≤ Number.wholeLimit) (hi : i < lines.length)
    (hplace : placeOf lines d.line = .ofNat i) (file : String) (color : Bool) :
    block file lines color d =
      [heading color d, "at " ++ file ++ ":" ++ d.line.text ++ ":" ++ d.column.text] ++
        neighbourRows (numberWidth lines) (d.line - 1) (lineAbove? lines i) ++
        [sourceRow (numberWidth lines) d.line lines[i], caretRow color (numberWidth lines) d] ++
        neighbourRows (numberWidth lines) (d.line + 1) lines[i + 1]? ++ hintRows d.hint ++ [""] := by
  have hline : (lineAt? lines (.ofNat i)).getD "" = lines[i] := by
    rw [lineAt?_ofNat (by omega), List.getElem?_eq_getElem hi, Option.getD_some]
  unfold block
  simp only [hplace, hline, lineAt?_before (Nat.le_trans hi.le hlimit),
    lineAt?_after hlimit (Nat.le_trans hi hlimit)]

end ClosingBrace.Report
