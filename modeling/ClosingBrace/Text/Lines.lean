/-!
# Lines of a text

A line feed, a carriage return, and a carriage return followed by a line feed each end one line.
Every text has at least one line, so a text that ends with a line end has an empty last line.

## Main statements

* `lineChars_ne_nil`: there is always a first line.
* `lineChars_of_unbroken`: a text without line ends is its own only line.
-/

namespace ClosingBrace.Text

def onFirstLine (c : Char) : List (List Char) → List (List Char)
  | [] => [[c]]
  | line :: lines => (c :: line) :: lines

def lineChars : List Char → List (List Char)
  | [] => [[]]
  | '\r' :: '\n' :: rest => [] :: lineChars rest
  | '\r' :: rest => [] :: lineChars rest
  | '\n' :: rest => [] :: lineChars rest
  | c :: rest => onFirstLine c (lineChars rest)

/-- The lines of a text, without their line ends. -/
def splitLines (s : String) : List String := (lineChars s.toList).map String.ofList

/-! ### Laws -/

theorem onFirstLine_ne_nil (c : Char) (lines : List (List Char)) : onFirstLine c lines ≠ [] := by
  cases lines <;> simp [onFirstLine]

theorem lineChars_ne_nil (cs : List Char) : lineChars cs ≠ [] := by
  fun_cases lineChars cs <;> simp [onFirstLine_ne_nil]

theorem splitLines_ne_nil (s : String) : splitLines s ≠ [] := by
  simp [splitLines, lineChars_ne_nil]

/-- A character that ends no line joins the first line of what follows. -/
theorem lineChars_cons {c : Char} (cs : List Char) (hr : c ≠ '\r') (hn : c ≠ '\n') :
    lineChars (c :: cs) = onFirstLine c (lineChars cs) := by
  rw [lineChars]
  · intro _ h; exact absurd h hr
  · exact hr
  · exact hn

theorem lineChars_of_unbroken {cs : List Char} (h : ∀ c ∈ cs, c ≠ '\r' ∧ c ≠ '\n') :
    lineChars cs = [cs] := by
  induction cs with
  | nil => rfl
  | cons c cs ih =>
    have hc := h c (by simp)
    rw [lineChars_cons cs hc.1 hc.2, ih fun d hd => h d (by simp [hd])]
    rfl

end ClosingBrace.Text
