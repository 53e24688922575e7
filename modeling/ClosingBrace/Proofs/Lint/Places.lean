import ClosingBrace.Proofs.Lint.Wording
import ClosingBrace.Proofs.Number.Digits
import Mathlib.Data.List.Induction

/-!
# Places in a template

A place is a number between braces; the number may have any length and zeros in front. No place goes
on over an opening brace, so a template can be cut in front of every opening brace and its pieces be
filled apart. Hence a place is filled in the same way wherever it stands, what it brings in is not
looked at again, and braces next to it never make up another place.

## Main statements

* `fill_append_brace`: a template may be cut in front of an opening brace.
* `IsNumeral.denotes_iff`: digits denote exactly one number.
* `format_fills_in_place`: how a template with a place is filled, and one without.
-/

namespace ClosingBrace.Message

variable {args : List Argument} {digits : List Char}

/-! ## Numbers in places -/

/-- A number as a place may name it: digits, and at least one. -/
def IsNumeral (digits : List Char) : Prop := digits ≠ [] ∧ ∀ c ∈ digits, c.isDigit = true

/-- The digits are those of the number, with any number of zeros in front. -/
def Denotes (digits : List Char) (k : Nat) : Prop :=
  ∃ zeros, digits = List.replicate zeros '0' ++ (toString k).toList

theorem digitsValue_append (first later : List Char) :
    digitsValue (first ++ later) =
      later.foldl (fun n c => n * 10 + (c.toNat - '0'.toNat)) (digitsValue first) := by
  unfold digitsValue
  rw [List.foldl_append]

theorem digitsValue_zeros (n : Nat) : digitsValue (List.replicate n '0') = 0 := by
  induction n with
  | zero => rfl
  | succ n ih => rw [List.replicate_succ', digitsValue_append, ih]; rfl

theorem digitsValue_toDigits (k : Nat) : digitsValue (Nat.toDigits 10 k) = k := by
  unfold digitsValue
  simp only [Nat.mul_comm _ 10]
  exact Nat.ofDigitChars_ten_toDigits

theorem Denotes.digitsValue_eq {k : Nat} (h : Denotes digits k) : digitsValue digits = k := by
  obtain ⟨zeros, rfl⟩ := h
  rw [digitsValue_append, digitsValue_zeros, toList_toString]
  exact digitsValue_toDigits k

theorem toDigits_digit {c : Char} (h : c.isDigit = true) :
    Nat.toDigits 10 (c.toNat - '0'.toNat) = [c] := by
  obtain ⟨hlow, hhigh⟩ := Char.isDigit_iff_toNat.mp h
  have hlt : c.toNat - '0'.toNat < 10 := Nat.sub_lt_left_of_lt_add hlow (Nat.lt_succ_of_le hhigh)
  rw [Nat.toDigits_of_lt_base hlt]
  congr 1
  apply Char.toNat_inj.mp
  rw [Nat.toNat_digitChar_of_lt_ten hlt]
  exact Nat.add_sub_of_le hlow

/-- A digit behind a number makes up a number ten times as great. -/
theorem Denotes.append_digit {k : Nat} (h : Denotes digits k) {c : Char} (hc : c.isDigit = true) :
    Denotes (digits ++ [c]) (k * 10 + (c.toNat - '0'.toNat)) := by
  obtain ⟨zeros, rfl⟩ := h
  have hdigit := toDigits_digit hc
  rcases Nat.eq_zero_or_pos k with rfl | hpos
  · -- The zero itself is one more zero in front.
    refine ⟨zeros + 1, ?_⟩
    rw [Nat.zero_mul, Nat.zero_add, toList_toString, toList_toString, hdigit,
      List.replicate_succ']
    rfl
  · refine ⟨zeros, ?_⟩
    have hlt : c.toNat - '0'.toNat < 10 := by
      have hhigh := (Char.isDigit_iff_toNat.mp hc).2
      exact Nat.lt_of_le_of_lt (Nat.sub_le_sub_right hhigh _) (by decide)
    rw [toList_toString, toList_toString, Nat.mul_comm,
      ← Nat.toDigits_append_toDigits (by decide) hpos hlt, hdigit, List.append_assoc]

/-- Digits denote their value. -/
theorem IsNumeral.denotes_digitsValue (h : IsNumeral digits) :
    Denotes digits (digitsValue digits) := by
  obtain ⟨hne, hdigits⟩ := h
  induction digits using List.reverseRecOn with
  | nil => exact absurd rfl hne
  | append_singleton first c ih =>
      have hc : c.isDigit = true := hdigits c (by simp)
      rw [digitsValue_append, List.foldl_cons, List.foldl_nil]
      by_cases hfirst : first = []
      · subst hfirst
        refine ⟨0, ?_⟩
        show [c] = (toString (0 * 10 + (c.toNat - '0'.toNat))).toList
        rw [Nat.zero_mul, Nat.zero_add, toList_toString, toDigits_digit hc]
      · exact (ih hfirst fun d hd => hdigits d (List.mem_append_left _ hd)).append_digit hc

/-- **Digits denote exactly one number.** -/
theorem IsNumeral.denotes_iff (h : IsNumeral digits) {k : Nat} :
    Denotes digits k ↔ digitsValue digits = k := by
  constructor
  · exact Denotes.digitsValue_eq
  · rintro rfl
    exact h.denotes_digitsValue

/-! ## Cutting a template -/

/-- What a place is made of. -/
theorem place?_eq_some {cs : List Char} {after : { rest : List Char // rest.length < cs.length }}
    (h : place? cs = some (digits, after)) :
    IsNumeral digits ∧ cs = digits ++ '}' :: after.val := by
  unfold place? at h
  split at h
  · cases h
  · next hdigits =>
      split at h
      · next rest hrest =>
          cases h
          refine ⟨⟨by simpa using hdigits, ?_⟩, ?_⟩
          · exact List.all_eq_true.mp List.all_takeWhile
          · rw [← hrest]
            exact List.takeWhile_append_dropWhile.symm
      · cases h

/-- A number between braces is a place. -/
theorem exists_place? (h : IsNumeral digits) (after : List Char) :
    ∃ found, place? (digits ++ '}' :: after) = some (digits, found) := by
  unfold place?
  rw [leadingDigits_append h.2 after, if_neg (by simpa using h.1)]
  split
  · next found hfound => exact ⟨_, rfl⟩
  · next hother => exact absurd (afterDigits_append h.2 after) (hother after)

theorem place?_eq_none_iff {cs : List Char} :
    place? cs = none ↔ ∀ digits after, IsNumeral digits → cs ≠ digits ++ '}' :: after := by
  constructor
  · rintro hnone digits after hdigits rfl
    obtain ⟨found, hfound⟩ := exists_place? hdigits after
    rw [hnone] at hfound
    cases hfound
  · intro hnever
    cases hplace : place? cs with
    | none => rfl
    | some found =>
        obtain ⟨hdigits, hcs⟩ := place?_eq_some hplace
        exact absurd hcs (hnever _ _ hdigits)

/-- A text that begins with no place begins with none when an opening brace follows: the brace is
no part of a place. -/
theorem place?_append_brace {before : List Char} (h : place? before = none) (rest : List Char) :
    place? (before ++ '{' :: rest) = none := by
  rw [place?_eq_none_iff] at h ⊢
  intro digits after hdigits heq
  rcases List.append_eq_append_iff.mp heq with ⟨between, rfl, hbetween⟩ | ⟨between, rfl, hbetween⟩
  · -- The brace would be one of the digits, or the closing brace.
    cases between with
    | nil => cases hbetween
    | cons c between =>
        cases hbetween
        have hbrace := hdigits.2 '{' (by simp)
        exact absurd hbrace (by decide)
  · cases between with
    | nil => cases hbetween
    | cons c between =>
        cases hbetween
        exact h digits between hdigits rfl

/-- **A template may be cut in front of an opening brace**, and its two pieces filled apart. -/
theorem fill_append_brace (args : List Argument) (before rest : List Char) :
    fill args (before ++ '{' :: rest) = fill args before ++ fill args ('{' :: rest) := by
  induction before using fill.induct with
  | case1 =>
      rw [fill_nil]
      rfl
  | case2 before digits after hplace ih =>
      obtain ⟨⟨hne, hdigits⟩, hbefore⟩ := place?_eq_some hplace
      rw [hbefore, List.cons_append, List.append_assoc, List.cons_append,
        fill_digits args hne hdigits, fill_digits args hne hdigits, ih, List.append_assoc]
  | case3 before hplace ih =>
      rw [List.cons_append, fill_of_no_place args (place?_append_brace hplace rest),
        fill_of_no_place args hplace, ih, List.cons_append]
  | case4 c before hc ih =>
      rw [List.cons_append, fill_cons_of_ne args hc, fill_cons_of_ne args hc, ih, List.cons_append]

/-- A template without places is kept. -/
theorem fill_of_placeless {template : List Char}
    (h : ∀ before digits after, IsNumeral digits →
      template ≠ before ++ '{' :: (digits ++ '}' :: after)) : fill args template = template := by
  induction template using fill.induct with
  | case1 => exact fill_nil args
  | case2 rest digits after hplace _ =>
      obtain ⟨hdigits, hrest⟩ := place?_eq_some hplace
      exact absurd (congrArg _ hrest) (h [] digits after hdigits)
  | case3 rest hplace ih =>
      rw [fill_of_no_place args hplace, ih]
      intro before digits after hdigits hrest
      exact h ('{' :: before) digits after hdigits (congrArg _ hrest)
  | case4 c rest hc ih =>
      rw [fill_cons_of_ne args hc, ih]
      intro before digits after hdigits hrest
      exact h (c :: before) digits after hdigits (congrArg _ hrest)

/-! ## Places -/

/-- A place as it is written. -/
def place (digits : List Char) : String := String.ofList ('{' :: (digits ++ ['}']))

/-- What is put in a place: the argument of its number as text, or the place itself if there is no
such argument. -/
inductive Inserts (args : List Argument) (digits : List Char) : String → Prop
  | argument {k : Nat} {a : Argument} : Denotes digits k → args[k]? = some a →
      Inserts args digits a.toText
  | kept : (∀ k < args.length, ¬ Denotes digits k) → Inserts args digits (place digits)

/-- A place is filled with what belongs there, and with nothing else. -/
theorem IsNumeral.inserts_iff (h : IsNumeral digits) {s : String} :
    Inserts args digits s ↔ s = String.ofList (filling args digits) := by
  unfold filling
  constructor
  · rintro (⟨hk, ha⟩ | hnone)
    · rw [h.denotes_iff] at hk
      rw [hk, ha, String.ofList_toList]
    · have hlast : args.length ≤ digitsValue digits :=
        Nat.le_of_not_lt fun hlt => hnone _ hlt h.denotes_digitsValue
      rw [List.getElem?_eq_none hlast]
      rfl
  · rintro rfl
    cases hargument : args[digitsValue digits]? with
    | some a =>
        simp only [String.ofList_toList]
        exact .argument h.denotes_digitsValue hargument
    | none =>
        apply Inserts.kept
        intro k hk hdenotes
        rw [h.denotes_iff] at hdenotes
        subst hdenotes
        exact absurd hk (Nat.not_lt.mpr (List.getElem?_eq_none_iff.mp hargument))

/-- **A place is filled where it stands, once.** Whatever stands around it is filled as if the place
were not there, and exactly one text comes in between: its argument, or the place itself. A template
without places is its own message. -/
theorem format_fills_in_place (args : List Argument) :
    (∀ (before after : String) (digits : List Char), IsNumeral digits →
      ∃ r, (∀ s, Inserts args digits s ↔ s = r) ∧
        format (before ++ place digits ++ after) args =
          format before args ++ r ++ format after args) ∧
    ∀ template : String, (∀ before digits after, IsNumeral digits →
      template ≠ before ++ place digits ++ after) → format template args = template := by
  constructor
  · intro before after digits hdigits
    refine ⟨String.ofList (filling args digits), fun s => hdigits.inserts_iff, ?_⟩
    have hwritten : (before ++ place digits ++ after).toList =
        before.toList ++ '{' :: (digits ++ '}' :: after.toList) := by
      simp [place]
    unfold format
    rw [hwritten, fill_append_brace, fill_digits args hdigits.1 hdigits.2, String.ofList_append,
      String.ofList_append, String.append_assoc]
  · intro template hplaceless
    unfold format
    rw [fill_of_placeless, String.ofList_toList]
    intro before digits after hdigits htemplate
    apply hplaceless (String.ofList before) digits (String.ofList after) hdigits
    rw [← String.toList_inj, htemplate]
    simp [place]

/-- A place with zeros in front stands between braces that look like parts of another one, and behind
a place whose argument looks like a place. A template without digits has no places. -/
theorem format_fills_in_place_between_braces :
    let args : List Argument := [.text "\x7b1\x7d", .number 7]
    let digits := ['0', '0', '1']
    let bare := "\x7b\x7d\x7bx\x7d\x7b"
    IsNumeral digits ∧ Inserts args digits "7" ∧
      format ("\x7b1\x7b0\x7d\x7b" ++ place digits ++ "\x7d\x7b2\x7d") args =
        format "\x7b1\x7b0\x7d\x7b" args ++ "7" ++ format "\x7d\x7b2\x7d" args ∧
      (∀ before digits after, IsNumeral digits → bare ≠ before ++ place digits ++ after) ∧
      format bare args = bare := by
  intro args digits bare
  have hnumeral : IsNumeral digits := ⟨by decide, List.all_eq_true.mp (by decide)⟩
  have hdenotes : Denotes digits 1 := ⟨2, by decide⟩
  have hseven : Inserts args digits "7" := by
    have hinserts : Inserts args digits (Argument.number 7).toText := .argument hdenotes rfl
    rwa [show (Argument.number 7).toText = "7" by decide +kernel] at hinserts
  have hbare : ∀ before digits after, IsNumeral digits →
      bare ≠ before ++ place digits ++ after := by
    rintro before digits after ⟨hne, hdigits⟩ hwritten
    obtain ⟨c, hc⟩ := List.exists_mem_of_ne_nil digits hne
    have hmem : c ∈ bare.toList := by
      rw [hwritten]
      simp [place, hc]
    have hnone : (bare.toList.all fun c => !c.isDigit) = true := by decide
    have hother := List.all_eq_true.mp hnone c hmem
    rw [hdigits c hc] at hother
    cases hother
  obtain ⟨hplaces, hplaceless⟩ := format_fills_in_place args
  obtain ⟨r, hr, hformat⟩ := hplaces "\x7b1\x7b0\x7d\x7b" "\x7d\x7b2\x7d" digits hnumeral
  obtain rfl := (hr "7").mp hseven
  exact ⟨hnumeral, hseven, hformat, hbare, hplaceless bare hbare⟩

end ClosingBrace.Message
