import ClosingBrace.Proofs.Text.LineEnds
import ClosingBrace.Text.Units

/-!
# Displaced texts

A text is displaced by putting empty lines above it and the same number of spaces in front of each
of its lines. Nothing else about it changes: its lines are found again further down, and what stands
before a column of a line is blank exactly when it was before the line moved.

## Main statements

* `splitLines_displace`: the lines of a displaced text are the displaced lines.
* `blankWithin_indent`: spaces in front of a line and of a column cancel out.
-/

namespace ClosingBrace.Text

/-- A line with `c` spaces in front. -/
def indent (c : Nat) (line : String) : String := String.ofList (List.replicate c ' ' ++ line.toList)

/-- Lines with `c` spaces in front of each of them, below `k` empty lines. -/
def displaceLines (k c : Nat) (lines : List String) : List String :=
  List.replicate k "" ++ lines.map (indent c)

/-- A text with `c` spaces in front of each of its lines, below `k` empty lines. -/
def displace (k c : Nat) (s : String) : String :=
  joinLines .lineFeed (displaceLines k c (splitLines s))

/-! ## Lines -/

theorem InterleavesChars.unbroken {lines : List (List Char)} {cs : List Char}
    (h : InterleavesChars lines cs) : ∀ line ∈ lines, Unbroken line := by
  induction h with
  | last hline =>
      intro line hmem
      rw [List.mem_singleton] at hmem
      rwa [hmem]
  | cons e hline _ _ ih =>
      intro line hmem
      rcases List.mem_cons.mp hmem with rfl | hmem
      · exact hline
      · exact ih line hmem

/-- No line ends within a line of a text. -/
theorem unbroken_of_mem_splitLines {s line : String} (h : line ∈ splitLines s) :
    Unbroken line.toList := by
  obtain ⟨cs, hcs, rfl⟩ := List.mem_map.mp h
  rw [String.toList_ofList]
  exact (interleaves_lineChars s.toList).unbroken cs hcs

theorem Unbroken.indent {line : String} (h : Unbroken line.toList) (c : Nat) :
    Unbroken (indent c line).toList := by
  intro ch hch
  rw [Text.indent, String.toList_ofList, List.mem_append, List.mem_replicate] at hch
  rcases hch with ⟨-, rfl⟩ | hch
  · decide
  · exact h ch hch

theorem unbroken_of_mem_displaceLines {k c : Nat} {s line : String}
    (h : line ∈ displaceLines k c (splitLines s)) : Unbroken line.toList := by
  rw [displaceLines, List.mem_append, List.mem_replicate, List.mem_map] at h
  rcases h with ⟨-, rfl⟩ | ⟨old, hold, rfl⟩
  · exact unbroken_nil
  · exact (unbroken_of_mem_splitLines hold).indent c

/-- **A displaced text has the displaced lines.** -/
theorem splitLines_displace (k c : Nat) (s : String) :
    splitLines (displace k c s) = displaceLines k c (splitLines s) := by
  apply splitLines_join
  · simp [displaceLines, splitLines_ne_nil]
  · intro line hline
    exact unbroken_of_mem_displaceLines hline

/-- A line is found again `k` lines further down. -/
theorem getElem?_displaceLines (k c : Nat) (lines : List String) (i : Nat) :
    (displaceLines k c lines)[i + k]? = lines[i]?.map (indent c) := by
  rw [displaceLines, List.getElem?_append_right (by simp)]
  simp

/-! ## Columns -/

/-- **Spaces in front of a line and of a column cancel out.** -/
theorem blankWithin_indent (c n : Nat) (cs : List Char) :
    blankWithin (n + c) (List.replicate c ' ' ++ cs) = blankWithin n cs := by
  induction c with
  | zero => rfl
  | succ c ih =>
      have hblank : isBlank ' ' = true := by decide
      have hwidth : width ' ' = 1 := by decide
      rw [List.replicate_succ, List.cons_append, ← Nat.add_assoc, blankWithin, hblank, hwidth,
        Nat.add_sub_cancel, Bool.true_and, ih]

end ClosingBrace.Text
