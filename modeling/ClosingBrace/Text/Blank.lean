/-!
# Blank characters

Which characters count as white space, before a closing brace as well as around an option's value:
the ASCII controls from tab to carriage return, the space, the no-break spaces, every other space
separator of Unicode, its line and paragraph separators, and the byte order mark. The next-line
control, the Mongolian vowel separator and the zero-width space do not count.

## Main statements

* `isBlank_of_isWhitespace`: every ASCII space of the core library is blank.
* `trim_eq_of_ends`: a text that neither starts nor ends with a blank is its own trimming.
-/

namespace ClosingBrace.Text

def isBlank (c : Char) : Bool :=
  let n := c.toNat
  (9 ≤ n && n ≤ 13) || n == 0x20 || n == 0xA0 || n == 0x1680 || (0x2000 ≤ n && n ≤ 0x200A) ||
    n == 0x2028 || n == 0x2029 || n == 0x202F || n == 0x205F || n == 0x3000 || n == 0xFEFF

def dropBlankEnd (cs : List Char) : List Char := (cs.reverse.dropWhile isBlank).reverse

def trimChars (cs : List Char) : List Char := dropBlankEnd (cs.dropWhile isBlank)

def trim (s : String) : String := String.ofList (trimChars s.toList)

def trimEnd (s : String) : String := String.ofList (dropBlankEnd s.toList)

/-! ### Laws -/

theorem isBlank_of_isWhitespace {c : Char} (h : c.isWhitespace = true) : isBlank c = true := by
  simp only [Char.isWhitespace, Bool.or_eq_true, decide_eq_true_eq] at h
  rcases h with ((h | h) | h) | h <;> subst h <;> decide

theorem trimChars_eq_of_ends {cs : List Char} (hfirst : ∀ c ∈ cs.head?, isBlank c = false)
    (hlast : ∀ c ∈ cs.getLast?, isBlank c = false) : trimChars cs = cs := by
  have hdrop : ∀ l : List Char, (∀ c ∈ l.head?, isBlank c = false) → l.dropWhile isBlank = l := by
    intro l hl
    cases l with
    | nil => rfl
    | cons a r => simp [hl a (by simp)]
  rw [trimChars, dropBlankEnd, hdrop cs hfirst, hdrop, List.reverse_reverse]
  simpa using hlast

theorem trim_eq_of_ends {s : String} (hfirst : ∀ c ∈ s.toList.head?, isBlank c = false)
    (hlast : ∀ c ∈ s.toList.getLast?, isBlank c = false) : trim s = s := by
  rw [trim, trimChars_eq_of_ends hfirst hlast, String.ofList_toList]

end ClosingBrace.Text
