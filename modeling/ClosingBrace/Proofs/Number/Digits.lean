import ClosingBrace.Number.Decimal
import ClosingBrace.Proofs.Number.Whole
import ClosingBrace.Proofs.Text.Units

/-!
# Decimal digits

A small natural number is written with its decimal digits, one code unit each. A greater number has
at least as many of them. All numbers are written with digits and few other characters.

## Main statements

* `text_ofNat`: the text of a small natural number.
* `length_toString_le`: greater numbers are not shorter.
* `isSymbol_of_mem_text`: the characters that numbers are written with.
-/

namespace ClosingBrace

theorem toList_toString (n : Nat) : (toString n).toList = Nat.toDigits 10 n := by
  rw [Nat.toString_eq_ofList_toDigits, String.toList_ofList]

theorem length_toString (n : Nat) : (toString n).length = (Nat.toDigits 10 n).length := by
  rw [← String.length_toList, toList_toString]

theorem length_toString_le {m n : Nat} (h : m ≤ n) :
    (toString m).length ≤ (toString n).length := by
  rw [length_toString, length_toString,
    Nat.length_toDigits_le_iff (by decide) Nat.length_toDigits_pos]
  exact Nat.lt_of_le_of_lt h
    ((Nat.length_toDigits_le_iff (by decide) Nat.length_toDigits_pos).mp Nat.le.refl)

/-- Every digit is a single code unit. -/
theorem narrow_toString (n : Nat) : Text.Narrow (toString n) := by
  intro c hc
  rw [toList_toString] at hc
  have hdigit := Nat.isDigit_of_mem_toDigits (by decide) (by decide) hc
  rw [Char.isDigit, Bool.and_eq_true, decide_eq_true_iff, decide_eq_true_iff] at hdigit
  have hle : c.toNat ≤ 57 := hdigit.2
  omega

/-- **A small natural number is written with its decimal digits.** -/
theorem Number.text_ofNat {n : Nat} (h : n ≤ wholeLimit) : (ofNat n).text = toString n := by
  have hsmall : isSmallWhole (n : Rat) = true := by
    simp [isSmallWhole, h]
  rw [text, toRat_ofNat_of_small h, if_pos hsmall, Rat.num_natCast]
  rfl

/-! ## The characters of a number -/

namespace Number

/-- A character that numbers are written with: a digit, a mark beside digits, or a letter of
infinity. -/
def isSymbol (c : Char) : Bool := c.isDigit || "+-.eInfinity".toList.contains c

/-- The text of a number, or a part of one. -/
def Written (cs : List Char) : Prop := cs.all isSymbol = true

instance (cs : List Char) : Decidable (Written cs) :=
  inferInstanceAs (Decidable (cs.all isSymbol = true))

variable {cs ds : List Char}

theorem Written.append (hcs : Written cs) (hds : Written ds) : Written (cs ++ ds) := by
  rw [Written, List.all_append, hcs, hds, Bool.and_true]

theorem Written.sublist (h : Written cs) (hds : ds.Sublist cs) : Written ds :=
  List.all_eq_true.mpr fun c hc => List.all_eq_true.mp h c (hds.mem hc)

theorem written_toDigits (n : Nat) : Written (Nat.toDigits 10 n) := by
  apply List.all_eq_true.mpr
  intro c hc
  rw [isSymbol, Nat.isDigit_of_mem_toDigits (by decide) (by decide) hc, Bool.true_or]

theorem written_toString (n : Nat) : Written (toString n).toList := by
  rw [toList_toString]
  exact written_toDigits n

theorem written_zeros (n : Nat) : Written (List.replicate n '0') := by
  apply List.all_eq_true.mpr
  intro c hc
  rw [List.eq_of_mem_replicate hc]
  rfl

theorem written_toString_int (z : Int) : Written (toString z).toList := by
  cases z with
  | ofNat n => exact written_toString n
  | negSucc n =>
      show Written ("-" ++ toString (n + 1)).toList
      rw [String.toList_append]
      exact .append (by decide) (written_toString (n + 1))

theorem written_significant (d : Decimal) : Written d.significant := by
  apply (written_toDigits d.mantissa).sublist
  apply List.reverse_sublist.mp
  rw [Decimal.significant, List.reverse_reverse]
  exact List.dropWhile_sublist _

theorem written_exponentText (e : Int) : Written (exponentText e).toList := by
  unfold exponentText
  split
  · rw [String.toList_append]
    exact .append (by decide) (written_toString e.natAbs)
  · rw [String.toList_append]
    exact .append (by decide) (written_toString e.natAbs)

theorem written_write (layout : Layout) (d : Decimal) : Written (d.write layout).toList := by
  have hdigits := written_significant d
  have hpoint (n : Nat) : Written (d.significant.take n ++ '.' :: d.significant.drop n) :=
    .append (hdigits.sublist (List.take_sublist _ _))
      (Written.append (by decide : Written ['.']) (hdigits.sublist (List.drop_sublist _ _)))
  unfold Decimal.write
  simp only
  split
  · split
    · rw [String.toList_ofList]
      exact hdigits.append (written_zeros _)
    · split
      · rw [String.toList_ofList]
        exact hpoint _
      · rw [String.toList_ofList]
        have hstart : Written ['0', '.'] := by decide
        exact (hstart.append (written_zeros _)).append hdigits
  · have hexponent := written_exponentText (d.point - 1)
    split
    · next digit hdigit =>
        rw [String.toList_append, String.toList_ofList]
        exact .append (hdigit ▸ hdigits) hexponent
    · rw [String.toList_append, String.toList_ofList]
      exact .append (hpoint 1) hexponent

/-- **The characters that numbers are written with** are the same few for all numbers. -/
theorem isSymbol_of_mem_text {x : Number} {c : Char} (hc : c ∈ x.text.toList) :
    isSymbol c = true := by
  have hwritten : Written x.text.toList := by
    unfold text
    split
    · exact written_toString_int _
    · split
      · decide
      · split
        · decide
        · split
          · rw [String.toList_append]
            exact .append (by decide) (written_write _ _)
          · exact written_write _ _
  exact List.all_eq_true.mp hwritten c hc

end Number
end ClosingBrace
