import ClosingBrace.Text.Blank

/-!
# Code units

Columns count UTF-16 code units: a character outside the basic plane takes two of them. File names
are ordered by their units too. A cut that falls inside a two-unit character takes half of it; half
a character is never blank, because every blank lies in the basic plane.

## Main statements

* `blankWithin_iff`: the first `n` units are blank exactly when every character that starts within
  them is blank.
* `notAfter_total`, `notAfter_trans`: the order of the units is an order.
-/

namespace ClosingBrace.Text

def unitsOf (c : Char) : List Nat :=
  if c.toNat < 0x10000 then [c.toNat]
  else [0xD800 + (c.toNat - 0x10000) / 0x400, 0xDC00 + (c.toNat - 0x10000) % 0x400]

def units (s : String) : List Nat := s.toList.flatMap unitsOf

def width (c : Char) : Nat := if c.toNat < 0x10000 then 1 else 2

def widthOf (cs : List Char) : Nat := (cs.flatMap unitsOf).length

/-- Whether the first `n` code units are all blank. -/
def blankWithin : Nat → List Char → Bool
  | 0, _ => true
  | _ + 1, [] => true
  | n + 1, c :: rest => isBlank c && blankWithin (n + 1 - width c) rest

/-- Where a cut at `column` falls in a text of `length` units: counted from the start, or from the
end when it is negative, and never outside the text. -/
def cutPoint (column : Int) (length : Nat) : Nat :=
  if column < 0 then (length + column).toNat else min column.toNat length

/-- Lexicographic order of code units: whether the first list comes strictly before the second. -/
def unitsBefore : List Nat → List Nat → Bool
  | _, [] => false
  | [], _ :: _ => true
  | a :: as, b :: bs => a < b || (a == b && unitsBefore as bs)

/-- Whether a text comes before another in the order of their code units, or equals it. -/
def notAfter (s t : String) : Bool := !unitsBefore (units t) (units s)

/-! ### Laws -/

@[simp] theorem length_unitsOf (c : Char) : (unitsOf c).length = width c := by
  unfold unitsOf width; split <;> rfl

@[simp] theorem widthOf_cons (c : Char) (cs : List Char) :
    widthOf (c :: cs) = width c + widthOf cs := by
  simp [widthOf]

theorem width_pos (c : Char) : 0 < width c := by unfold width; split <;> decide

theorem unitsBefore_asymm (as bs : List Nat) (h : unitsBefore as bs = true) :
    unitsBefore bs as = false := by
  induction as generalizing bs with
  | nil => cases bs <;> rfl
  | cons a as ih =>
    cases bs with
    | nil => simp [unitsBefore] at h
    | cons b bs =>
      simp only [unitsBefore, Bool.or_eq_true, Bool.and_eq_true, decide_eq_true_eq,
        beq_iff_eq] at h
      rw [← Bool.not_eq_true]
      simp only [unitsBefore, Bool.or_eq_true, Bool.and_eq_true, decide_eq_true_eq, beq_iff_eq]
      rintro (hlt | ⟨heq, hrest⟩)
      · omega
      · rcases h with hlt | ⟨_, h⟩
        · omega
        · simp [ih bs h] at hrest

theorem not_unitsBefore_trans {as bs cs : List Nat} (h : unitsBefore bs as = false)
    (h' : unitsBefore cs bs = false) : unitsBefore cs as = false := by
  induction as generalizing bs cs with
  | nil => cases cs <;> rfl
  | cons a as ih =>
    cases bs with
    | nil => simp [unitsBefore] at h
    | cons b bs =>
      cases cs with
      | nil => simp [unitsBefore] at h'
      | cons c cs =>
        simp only [unitsBefore, Bool.or_eq_false_iff, Bool.and_eq_false_iff,
          decide_eq_false_iff_not, beq_eq_false_iff_ne] at h h' ⊢
        refine ⟨by omega, ?_⟩
        by_cases hca : c = a
        · have hba : b = a := by omega
          have hcb : c = b := by omega
          exact .inr (ih (h.2.resolve_left (absurd hba)) (h'.2.resolve_left (absurd hcb)))
        · exact .inl hca

theorem notAfter_total (s t : String) : (notAfter s t || notAfter t s) = true := by
  unfold notAfter
  cases h : unitsBefore (units t) (units s) with
  | false => rfl
  | true => simp [unitsBefore_asymm _ _ h]

theorem notAfter_trans {s t u : String} (h : notAfter s t = true) (h' : notAfter t u = true) :
    notAfter s u = true := by
  unfold notAfter at h h' ⊢
  rw [Bool.not_eq_true'] at h h' ⊢
  exact not_unitsBefore_trans h h'

/-- What the first `n` units hold is blank exactly when every character that starts among them
is. -/
theorem blankWithin_iff (n : Nat) (cs : List Char) :
    blankWithin n cs = true ↔
      ∀ before c after, cs = before ++ c :: after → widthOf before < n → isBlank c = true := by
  induction cs generalizing n with
  | nil => cases n <;> simp [blankWithin]
  | cons d ds ih =>
    cases n with
    | zero => simp [blankWithin]
    | succ n =>
      rw [blankWithin, Bool.and_eq_true, ih]
      constructor
      · rintro ⟨hd, hds⟩ before c after heq hlt
        cases before with
        | nil => simp_all
        | cons e es =>
          obtain ⟨rfl, rfl⟩ : d = e ∧ ds = es ++ c :: after := by simpa using heq
          refine hds es c after rfl ?_
          rw [widthOf_cons] at hlt
          omega
      · intro h
        refine ⟨h [] d ds rfl (by simp [widthOf]), fun before c after heq hlt => ?_⟩
        refine h (d :: before) c after (by simp [heq]) ?_
        have := width_pos d
        rw [widthOf_cons]
        omega

end ClosingBrace.Text
