import ClosingBrace.Text.Lines
import ClosingBrace.Text.Units

/-!
# What stands left of a column

Whether only blanks stand left of a column is a property of the code units there. A character may
reach over the column with its second unit; it then counts by its first, and a character of two
units is never blank. So an edit of a text that leaves the units left of some marks as they are, and
the lines where they are, cannot be noticed by asking for blanks at the marks.

## Main statements

* `blankWithin_eq_all`: only the units left of the column are looked at.
-/

namespace ClosingBrace.Text

/-- Whether a code unit is a blank character; half of a character never is. -/
def isBlankUnit (u : Nat) : Bool := isBlank (Char.ofNat u)

/-- A character is blank when the units of it that are looked at are, as long as there are any. -/
theorem all_take_unitsOf (c : Char) (n : Nat) :
    ((unitsOf c).take (n + 1)).all isBlankUnit = isBlank c := by
  unfold unitsOf
  split
  · simp [isBlankUnit, Char.ofNat_toNat]
  · next hlarge =>
      -- The first unit is half of a character, and no blank needs two units.
      have hchar : isBlank c = false := by
        simp only [isBlank, Bool.or_eq_false_iff, Bool.and_eq_false_iff, decide_eq_false_iff_not,
          beq_eq_false_iff_ne]
        omega
      have hhalf : isBlankUnit (0xD800 + (c.toNat - 0x10000) / 0x400) = false := by
        have hvalid : Nat.isValidChar c.toNat := c.valid
        have hinvalid : ¬ Nat.isValidChar (0xD800 + (c.toNat - 0x10000) / 0x400) := by
          unfold Nat.isValidChar at hvalid ⊢
          omega
        rw [isBlankUnit, Char.ofNat, dif_neg hinvalid]
        decide
      rw [List.take_succ_cons, List.all_cons, hhalf, hchar, Bool.false_and]

/-- **Only the units left of the column are looked at.** -/
theorem blankWithin_eq_all (n : Nat) (cs : List Char) :
    blankWithin n cs = ((cs.flatMap unitsOf).take n).all isBlankUnit := by
  induction cs generalizing n with
  | nil => cases n <;> rfl
  | cons c cs ih =>
      cases n with
      | zero => rfl
      | succ n =>
          rw [blankWithin, List.flatMap_cons, List.take_append, List.all_append, all_take_unitsOf,
            length_unitsOf, ih]

theorem blankWithin_nil (n : Nat) : blankWithin n [] = true := by cases n <;> rfl

/-- A line ends before any cut beyond its end. -/
theorem blankWithin_min (n : Nat) (cs : List Char) :
    blankWithin (min n (widthOf cs)) cs = blankWithin n cs := by
  rw [blankWithin_eq_all, blankWithin_eq_all, widthOf, ← List.take_eq_take_min]

/-! ## Edits right of marks -/

/-- A text is edited right of some marks: it keeps its number of lines, and every line keeps the
code units left of each column that is marked on it. Lines are counted from 0. -/
structure EditedRightOf (marked : Nat → Nat → Prop) (s s' : String) : Prop where
  length_eq : (splitLines s').length = (splitLines s).length
  take_eq : ∀ i n line line', marked i n → (splitLines s)[i]? = some line →
    (splitLines s')[i]? = some line' → (units line').take n = (units line).take n

/-- An edit right of a mark does not change whether only blanks stand left of it. Where a text has
no line, there is none after the edit either. -/
theorem EditedRightOf.blankWithin_eq {marked : Nat → Nat → Prop} {s s' : String}
    (h : EditedRightOf marked s s') {i n : Nat} (hmarked : marked i n) :
    blankWithin n (((splitLines s')[i]?.getD "").toList) =
      blankWithin n (((splitLines s)[i]?.getD "").toList) := by
  by_cases hi : i < (splitLines s).length
  · have hi' : i < (splitLines s').length := h.length_eq.symm ▸ hi
    have hline := List.getElem?_eq_getElem hi
    have hline' := List.getElem?_eq_getElem hi'
    rw [hline, hline', Option.getD_some, Option.getD_some, blankWithin_eq_all, blankWithin_eq_all]
    exact congrArg (List.all · isBlankUnit) (h.take_eq i n _ _ hmarked hline hline')
  · have hi' : ¬ i < (splitLines s').length := h.length_eq.symm ▸ hi
    rw [List.getElem?_eq_none (Nat.le_of_not_lt hi), List.getElem?_eq_none (Nat.le_of_not_lt hi')]

end ClosingBrace.Text
