import ClosingBrace.Text.Lines
import ClosingBrace.Text.Units

/-!
# Counting code units

The code units of a text are those of its characters in order. Most texts that a report puts around
a line have one code unit for each character, and no text has more lines than code units and one.

## Main statements

* `units_append`: the units of two texts side by side.
* `Narrow.units_eq`: the units of a text without two-unit characters.
* `length_splitLines_le`: how many lines a text can have.
-/

namespace ClosingBrace.Text

variable {s t : String}

@[simp] theorem units_append (s t : String) : units (s ++ t) = units s ++ units t := by
  simp [units]

/-! ## Narrow texts -/

/-- Every character is a single code unit. -/
def Narrow (s : String) : Prop := ∀ c ∈ s.toList, c.toNat < 0x10000

theorem narrow_iff_all : Narrow s ↔ (s.toList.all fun c => c.toNat < 0x10000) = true := by
  simp [Narrow]

theorem Narrow.append (hs : Narrow s) (ht : Narrow t) : Narrow (s ++ t) := by
  intro c hc
  rw [String.toList_append, List.mem_append] at hc
  rcases hc with hc | hc
  · exact hs c hc
  · exact ht c hc

theorem Narrow.units_eq (h : Narrow s) : units s = s.toList.map Char.toNat := by
  have heach : s.toList.map unitsOf = s.toList.map fun c => [c.toNat] := by
    apply List.map_congr_left
    intro c hc
    rw [unitsOf, if_pos (h c hc)]
  rw [units, List.flatMap_def, heach, ← List.flatMap_def, ← List.map_eq_flatMap]

theorem Narrow.length_units (h : Narrow s) : (units s).length = s.length := by
  rw [h.units_eq, List.length_map, String.length_toList]

/-! ## Lines -/

theorem length_le_widthOf (cs : List Char) : cs.length ≤ widthOf cs := by
  induction cs with
  | nil => exact Nat.le_refl 0
  | cons c cs ih =>
      have hwidth := width_pos c
      rw [List.length_cons, widthOf_cons]
      omega

theorem length_onFirstLine_le (c : Char) (lines : List (List Char)) :
    (onFirstLine c lines).length ≤ lines.length + 1 := by
  cases lines <;> simp [onFirstLine]

theorem length_lineChars_le (cs : List Char) : (lineChars cs).length ≤ cs.length + 1 := by
  fun_induction lineChars cs with
  | case1 => exact Nat.le_refl 1
  | case2 rest ih => simp only [List.length_cons]; omega
  | case3 rest _ ih => simpa using ih
  | case4 rest ih => simpa using ih
  | case5 c rest _ _ _ ih =>
      have hfirst := length_onFirstLine_le c (lineChars rest)
      rw [List.length_cons]
      omega

/-- **A text has at most one line more than it has code units.** -/
theorem length_splitLines_le (s : String) : (splitLines s).length ≤ (units s).length + 1 := by
  rw [splitLines, List.length_map]
  exact Nat.le_trans (length_lineChars_le s.toList) (Nat.succ_le_succ (length_le_widthOf s.toList))

end ClosingBrace.Text
