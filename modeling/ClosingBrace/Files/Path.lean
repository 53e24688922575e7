import ClosingBrace.Text.Parts

/-!
# Paths

A path is a text of segments with slashes between them. Its normal form drops empty segments and
single dots, and lets a double dot cancel the segment in front of it; a double dot that has nothing
to cancel is kept, except in an absolute path.

## Main statements

* `plain_of_mem_normalSegments`: no empty segment and no single dot is left.
* `up_not_mem_normalSegments`: an absolute path keeps no double dot either.
-/

namespace ClosingBrace.Path

def here : String := "."

def up : String := ".."

/-- The segments of a path, as written. -/
def segments (path : String) : List String := Text.parts '/' path

def isAbsolute (path : String) : Bool := path.toList.head? == some '/'

def stays (segment : String) : Bool := segment.isEmpty || segment == here

/-- The segments taken so far, the latest first, after one more. -/
def step (absolute : Bool) (taken : List String) (segment : String) : List String :=
  if stays segment then taken
  else if segment = up then
    match taken with
    | [] => if absolute then [] else [up]
    | last :: before => if last = up then up :: last :: before else before
  else segment :: taken

def normalSegments (path : String) : List String :=
  ((segments path).foldl (step (isAbsolute path)) []).reverse

def ofSegments (segments : List String) : String := "/".intercalate segments

/-- The full name of what a path leads to from a directory. -/
def resolve (directory path : String) : String :=
  let whole := if isAbsolute path then path else directory ++ "/" ++ path
  (if isAbsolute whole then "/" else "") ++ ofSegments (normalSegments whole)

/-! ### Laws -/

theorem stays_of_mem_step {absolute : Bool} {taken : List String} {segment s : String}
    (h : ∀ s ∈ taken, stays s = false) (hs : s ∈ step absolute taken segment) :
    stays s = false := by
  have hup : stays up = false := by decide
  unfold step at hs
  split at hs
  · exact h s hs
  · rename_i hsegment
    split at hs
    · split at hs
      · split at hs
        · simp at hs
        · obtain rfl : s = up := by simpa using hs
          exact hup
      · split at hs
        · rcases List.mem_cons.1 hs with rfl | hs
          · exact hup
          · exact h s hs
        · exact h s (List.mem_cons_of_mem _ hs)
    · rcases List.mem_cons.1 hs with rfl | hs
      · simpa using hsegment
      · exact h s hs

/-- Every segment of a normal form leads somewhere. -/
theorem plain_of_mem_normalSegments {path s : String} (hs : s ∈ normalSegments path) :
    stays s = false := by
  have hfold : ∀ (given taken : List String), (∀ s ∈ taken, stays s = false) →
      ∀ s ∈ given.foldl (step (isAbsolute path)) taken, stays s = false := by
    intro given
    induction given with
    | nil => exact fun _ h => h
    | cons segment rest ih => exact fun taken h => ih _ fun s hs => stays_of_mem_step h hs
  exact hfold _ [] (by simp) s (by simpa [normalSegments] using hs)

theorem up_not_mem_step {taken : List String} {segment : String} (h : up ∉ taken) :
    up ∉ step true taken segment := by
  unfold step
  split
  · exact h
  · split
    · split
      · simp
      · rename_i last before
        split
        · rename_i hlast
          exact absurd (by simp [hlast]) h
        · exact fun hup => h (List.mem_cons_of_mem _ hup)
    · rename_i hup
      rintro hs
      rcases List.mem_cons.1 hs with hs | hs
      · exact hup hs.symm
      · exact h hs

/-- Nothing lies above the top. -/
theorem up_not_mem_normalSegments {path : String} (h : isAbsolute path = true) :
    up ∉ normalSegments path := by
  have hfold : ∀ (given taken : List String), up ∉ taken → up ∉ given.foldl (step true) taken := by
    intro given
    induction given with
    | nil => exact fun _ h => h
    | cons segment rest ih => exact fun taken h => ih _ (up_not_mem_step h)
  simpa [normalSegments, h] using hfold (segments path) [] (by simp)

end ClosingBrace.Path
