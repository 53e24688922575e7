import ClosingBrace.Lint.Message

/-!
# Filling templates

A template is read piece by piece: text without an opening brace is kept, and a number between
braces gives way to its argument. A template that is made of three plain texts around two places is
therefore filled in one way only.

## Main statements

* `fill_append_of_plain`, `fill_digits`: how each kind of piece is filled.
* `HasTwoPlaces.format_eq`: the message of a template with two places.
-/

namespace ClosingBrace.Message

/-- Text without an opening brace is kept. -/
theorem fill_append_of_plain (args : List Argument) {plain : List Char} (h : '{' ∉ plain)
    (rest : List Char) : fill args (plain ++ rest) = plain ++ fill args rest := by
  induction plain with
  | nil => rfl
  | cons c plain ih =>
      rw [List.mem_cons, not_or] at h
      rw [List.cons_append, fill_cons_of_ne args (Ne.symm h.1), ih h.2, List.cons_append]

theorem leadingDigits_append {digits : List Char} (h : ∀ c ∈ digits, c.isDigit = true)
    (rest : List Char) :
    leadingDigits (digits ++ '}' :: rest) = digits := by
  unfold leadingDigits
  rw [List.takeWhile_append_of_pos h]
  simp [show Char.isDigit '}' = false by decide]

theorem afterDigits_append {digits : List Char} (h : ∀ c ∈ digits, c.isDigit = true)
    (rest : List Char) :
    afterDigits (digits ++ '}' :: rest) = '}' :: rest := by
  unfold afterDigits
  rw [List.dropWhile_append_of_pos h]
  simp [show Char.isDigit '}' = false by decide]

/-- A number between braces is a place. -/
theorem fill_digits (args : List Argument) {digits : List Char} (hne : digits ≠ [])
    (hdigits : ∀ c ∈ digits, c.isDigit = true) (rest : List Char) :
    fill args ('{' :: (digits ++ '}' :: rest)) = filling args digits ++ fill args rest := by
  have hafter := afterDigits_append hdigits rest
  have hlength : rest.length < (digits ++ '}' :: rest).length := by
    simp only [List.length_append, List.length_cons]
    omega
  have hplace : place? (digits ++ '}' :: rest) = some (digits, ⟨rest, hlength⟩) := by
    unfold place?
    rw [leadingDigits_append hdigits rest, if_neg (by simpa using hne)]
    split
    · next found hfound =>
        rw [hafter] at hfound
        cases hfound
        rfl
    · next hother => exact absurd hafter (hother rest)
  rw [fill_place args hplace]

theorem fill_digit (args : List Argument) {digit : Char} (h : digit.isDigit = true)
    (rest : List Char) :
    fill args ('{' :: digit :: '}' :: rest) = filling args [digit] ++ fill args rest := by
  have hdigits : ∀ c ∈ [digit], c.isDigit = true := by
    intro c hc
    rw [List.mem_singleton.mp hc]
    exact h
  exact fill_digits args (List.cons_ne_nil digit []) hdigits rest

/-- A template is three plain texts with the first two places between them. -/
def HasTwoPlaces (template before between behind : String) : Prop :=
  template = before ++ "\x7b0\x7d" ++ between ++ "\x7b1\x7d" ++ behind ∧
    '{' ∉ before.toList ∧ '{' ∉ between.toList ∧ '{' ∉ behind.toList

/-- The message of such a template has the two arguments in its places. -/
theorem HasTwoPlaces.format_eq {template before between behind : String}
    (h : HasTwoPlaces template before between behind) (first second : Argument) :
    format template [first, second] =
      before ++ first.toText ++ between ++ second.toText ++ behind := by
  obtain ⟨rfl, hbefore, hbetween, hbehind⟩ := h
  have hplain : fill [first, second] behind.toList = behind.toList := by
    have hfill := fill_append_of_plain [first, second] hbehind []
    rwa [fill_nil, List.append_nil] at hfill
  have hzero (rest : List Char) : fill [first, second] ("\x7b0\x7d".toList ++ rest) =
      first.toText.toList ++ fill [first, second] rest :=
    fill_digit [first, second] rfl rest
  have hone (rest : List Char) : fill [first, second] ("\x7b1\x7d".toList ++ rest) =
      second.toText.toList ++ fill [first, second] rest :=
    fill_digit [first, second] rfl rest
  unfold format
  rw [← String.toList_inj, String.toList_ofList]
  simp only [String.toList_append, List.append_assoc]
  rw [fill_append_of_plain _ hbefore, hzero, fill_append_of_plain _ hbetween, hone, hplain]

end ClosingBrace.Message
