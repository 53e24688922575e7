/-!
# Parts of a text

A text divided at every occurrence of a character. There is always at least one part, and joining
the parts with the character gives the text back.

## Main statements

* `intercalate_partChars`: nothing is lost.
* `not_mem_of_mem_partChars`: no part holds the dividing character.
-/

namespace ClosingBrace.Text

/-- The parts of a list between the occurrences of `sep`. -/
def partChars (sep : Char) : List Char → List (List Char)
  | [] => [[]]
  | c :: rest =>
    if c = sep then [] :: partChars sep rest
    else
      match partChars sep rest with
      | [] => [[c]]
      | part :: parts => (c :: part) :: parts

/-- The parts of a text between the occurrences of `sep`. -/
def parts (sep : Char) (s : String) : List String := (partChars sep s.toList).map String.ofList

/-! ### Laws -/

theorem partChars_ne_nil (sep : Char) (cs : List Char) : partChars sep cs ≠ [] := by
  cases cs with
  | nil => simp [partChars]
  | cons c rest =>
    rw [partChars]
    split
    · simp
    · split <;> simp

theorem intercalate_partChars (sep : Char) (cs : List Char) :
    [sep].intercalate (partChars sep cs) = cs := by
  induction cs with
  | nil => simp [partChars, List.intercalate]
  | cons c rest ih =>
    rw [partChars]
    cases h : partChars sep rest with
    | nil => exact absurd h (partChars_ne_nil sep rest)
    | cons part parts =>
      rw [h] at ih
      split
      · rename_i hc
        subst hc
        simp only [List.intercalate] at ih ⊢
        simp [List.intersperse, ih]
      · simp only [List.intercalate] at ih ⊢
        cases parts with
        | nil => simpa using ih
        | cons second others =>
          simp only [List.intersperse_cons_cons, List.flatten_cons, List.cons_append] at ih ⊢
          rw [ih]

theorem not_mem_of_mem_partChars {sep : Char} {cs part : List Char}
    (h : part ∈ partChars sep cs) : sep ∉ part := by
  induction cs generalizing part with
  | nil => simp_all [partChars]
  | cons c rest ih =>
    rw [partChars] at h
    split at h
    · rcases List.mem_cons.1 h with rfl | h
      · simp
      · exact ih h
    · rename_i hc
      split at h
      · obtain rfl : part = [c] := by simpa using h
        simpa using fun he : sep = c => hc he.symm
      · rename_i first others heq
        rcases List.mem_cons.1 h with rfl | h
        · have hfirst : sep ∉ first := ih (by simp [heq])
          simpa [hfirst] using fun he : sep = c => hc he.symm
        · exact ih (by simp [heq, h])

end ClosingBrace.Text
