import ClosingBrace.Text.Blank
import ClosingBrace.Text.LetterCase
import ClosingBrace.Text.Parts
import Mathlib.Data.List.Basic

/-!
# Texts that are read alike

Trimming does not see the blanks around a text, capitals do not see the letter case of an ASCII word,
and texts that are joined by a character are found again as the parts of the whole.

## Main statements

* `trim_pad`: blanks around a text do not count.
* `parts_join`: texts without the dividing character are the parts of what it joins.
* `capitals_of_toUpper`: a word in any letter case has the capitals of the word.
-/

namespace ClosingBrace.Text

/-! ## Blanks -/

/-- The text has nothing but blanks. -/
def Blank (s : String) : Prop := ∀ c ∈ s.toList, isBlank c = true

/-- The text has no blank. -/
def Solid (s : String) : Prop := ∀ c ∈ s.toList, isBlank c = false

theorem blank_iff_all {s : String} : Blank s ↔ s.toList.all isBlank = true :=
  List.all_eq_true.symm

theorem solid_iff_all {s : String} : Solid s ↔ (s.toList.all fun c => !isBlank c) = true := by
  simp [Solid]

theorem dropBlankEnd_append {cs right : List Char} (h : ∀ c ∈ right, isBlank c = true) :
    dropBlankEnd (cs ++ right) = dropBlankEnd cs := by
  rw [dropBlankEnd, List.reverse_append,
    List.dropWhile_append_of_pos fun c hc => h c (List.mem_reverse.mp hc), dropBlankEnd]

theorem trimChars_pad {left cs right : List Char} (hleft : ∀ c ∈ left, isBlank c = true)
    (hright : ∀ c ∈ right, isBlank c = true) :
    trimChars (left ++ (cs ++ right)) = trimChars cs := by
  rw [trimChars, List.dropWhile_append_of_pos hleft, trimChars, List.dropWhile_append]
  split
  · next hempty =>
      have hnone : (right ++ []).dropWhile isBlank = [] := List.dropWhile_append_of_pos hright
      rw [List.append_nil] at hnone
      rw [hnone, List.isEmpty_iff.mp hempty]
  · exact dropBlankEnd_append hright

/-- **Blanks around a text do not count.** -/
theorem trim_pad {left right : String} (hleft : Blank left) (hright : Blank right) (s : String) :
    trim (left ++ s ++ right) = trim s := by
  rw [trim, trim, String.toList_append, String.toList_append, List.append_assoc,
    trimChars_pad hleft hright]

theorem Solid.trim_eq {s : String} (h : Solid s) : trim s = s :=
  trim_eq_of_ends (fun c hc => h c (List.mem_of_head? hc))
    (fun c hc => h c (List.mem_of_getLast? hc))

/-! ## Parts -/

variable {sep : Char}

theorem partChars_of_notMem {part : List Char} (h : sep ∉ part) : partChars sep part = [part] := by
  induction part with
  | nil => rfl
  | cons c rest ih =>
      rw [List.mem_cons, not_or] at h
      rw [partChars, if_neg (Ne.symm h.1), ih h.2]

theorem partChars_append {part : List Char} (h : sep ∉ part) (rest : List Char) :
    partChars sep (part ++ sep :: rest) = part :: partChars sep rest := by
  induction part with
  | nil => rw [List.nil_append, partChars, if_pos rfl]
  | cons c part ih =>
      rw [List.mem_cons, not_or] at h
      rw [List.cons_append, partChars, if_neg (Ne.symm h.1), ih h.2]

/-- **Texts that are joined** are found again as parts, if none of them has the dividing character. -/
theorem parts_join {joint : String} (hjoint : joint.toList = [sep]) {texts : List String}
    (hne : texts ≠ []) (h : ∀ text ∈ texts, sep ∉ text.toList) :
    parts sep (joint.intercalate texts) = texts := by
  induction texts with
  | nil => exact absurd rfl hne
  | cons text rest ih =>
      have htext := h text List.mem_cons_self
      cases rest with
      | nil =>
          show (partChars sep text.toList).map String.ofList = [text]
          rw [partChars_of_notMem htext, List.map_singleton, String.ofList_toList]
      | cons second others =>
          have hrest := ih (List.cons_ne_nil _ _) fun other hother =>
            h other (List.mem_cons_of_mem _ hother)
          rw [parts] at hrest
          rw [parts, String.intercalate_cons_of_ne_nil (List.cons_ne_nil _ _), String.toList_append,
            String.toList_append, hjoint, List.append_assoc, List.singleton_append,
            partChars_append htext, List.map_cons, hrest, String.ofList_toList]

/-! ## Letter case -/

/-- Only a small letter of ASCII is changed, and it becomes the capital. -/
theorem toUpper_cases (c : Char) :
    c.toUpper = c ∨ 97 ≤ c.toNat ∧ c.toNat ≤ 122 ∧ c.toUpper.toNat + 32 = c.toNat := by
  unfold Char.toUpper
  split
  · next h =>
      have hge : 97 ≤ c.toNat := UInt32.le_iff_toNat_le.mp h.1
      have hle : c.toNat ≤ 122 := UInt32.le_iff_toNat_le.mp h.2
      refine .inr ⟨hge, hle, ?_⟩
      show (c.val + ('A'.val - 'a'.val)).toNat + 32 = c.val.toNat
      have hval : c.val.toNat = c.toNat := rfl
      rw [UInt32.toNat_add, show ('A'.val - 'a'.val).toNat = 4294967264 by rfl]
      omega
  · exact .inl rfl

theorem isBlank_of_toUpper {c : Char} (h : isBlank c.toUpper = false) : isBlank c = false := by
  obtain hsame | ⟨hge, hle, -⟩ := toUpper_cases c
  · rwa [hsame] at h
  · simp only [isBlank, Bool.or_eq_false_iff, Bool.and_eq_false_iff, decide_eq_false_iff_not,
      beq_eq_false_iff_ne]
    omega

theorem Solid.of_toUpper {s word : String} (hword : Solid word)
    (h : s.toList.map Char.toUpper = word.toList) : Solid s := fun _ hc =>
  isBlank_of_toUpper (hword _ (h ▸ List.mem_map_of_mem hc))

/-- **A word in any letter case** has the capitals of the word, if this is made of characters that are
their own capitals. -/
theorem capitals_of_toUpper {s word : String} (hword : ∀ d ∈ word.toList, capital d = d)
    (h : s.toList.map Char.toUpper = word.toList) : capitals s = word := by
  have hcapital : ∀ c ∈ s.toList, capital c = c.toUpper := by
    intro c hc
    have hd := hword c.toUpper (h ▸ List.mem_map_of_mem hc)
    unfold capital
    split
    · next hlong =>
        -- A long s would stand in the word itself, because it is not changed.
        obtain rfl := eq_of_beq hlong
        exact absurd hd (by decide)
    · split
      · next hdotless =>
          obtain rfl := eq_of_beq hdotless
          exact absurd hd (by decide)
      · rfl
  rw [capitals, List.map_congr_left hcapital, h, String.ofList_toList]

end ClosingBrace.Text
