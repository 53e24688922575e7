import ClosingBrace.Text.LetterCase

/-!
# Words in any letter case

The small form of a text is a word of ASCII small letters only if the text is that word, with some
of its letters in capitals. The one other character that has an ASCII letter as its small form is
the sign for the kelvin, so this holds of words without the letter `k`.

## Main statements

* `mapBySpans_smallSpans_eq_iff`: what has a given ASCII letter as its small form.
* `small_eq_iff`: what has a given word as its small form.
-/

namespace ClosingBrace.Text

/-- An ASCII small letter that is the small form of that letter and its capital alone. -/
def IsSimple (c : Char) : Prop := 97 ≤ c.toNat ∧ c.toNat ≤ 122 ∧ c ≠ 'k'

instance (c : Char) : Decidable (IsSimple c) := inferInstanceAs (Decidable (_ ∧ _))

/-! ## Single characters -/

/-- A span of capitals is that of ASCII, or it leads to a kelvin, or out of ASCII. -/
theorem smallSpans_cases : ∀ span ∈ smallSpans, span = (0x41, 0x5A, 1, 32) ∨
    span = (0x212A, 0x212A, 1, -8383) ∨ (128 : Int) ≤ span.1 + span.2.2.2 := by
  decide +kernel

/-- No span has small letters of ASCII. -/
theorem smallSpans_apart : ∀ span ∈ smallSpans, span.2.1 < 97 ∨ 122 < span.1 := by
  decide +kernel

/-- **Only an ASCII letter and its capital lead to the letter**, if that is not `k`. -/
theorem mapBySpans_smallSpans_eq_iff {n m : Nat} (hm : 97 ≤ m ∧ m ≤ 122 ∧ m ≠ 107) :
    mapBySpans smallSpans n = m ↔ n = m ∨ n + 32 = m := by
  constructor
  · intro hmap
    unfold mapBySpans at hmap
    split at hmap
    · next first last step offset hfind =>
        have hin := List.find?_some hfind
        simp only [Bool.and_eq_true, decide_eq_true_eq] at hin
        obtain hascii | hkelvin | hlarge := smallSpans_cases _ (List.mem_of_find?_eq_some hfind)
        · cases hascii
          omega
        · cases hkelvin
          omega
        · simp only at hlarge
          omega
    · exact .inl hmap
  · rintro (rfl | rfl)
    · unfold mapBySpans
      split
      · next first last step offset hfind =>
          have hin := List.find?_some hfind
          simp only [Bool.and_eq_true, decide_eq_true_eq] at hin
          have hapart := smallSpans_apart _ (List.mem_of_find?_eq_some hfind)
          simp only at hapart
          omega
      · rfl
    · -- The capitals of ASCII are the first span.
      have hcapital : 65 ≤ n ∧ n ≤ 90 := by omega
      unfold mapBySpans
      rw [show smallSpans = (0x41, 0x5A, 1, 32) :: smallSpans.tail from rfl,
        List.find?_cons_of_pos (by simp [hcapital, Nat.mod_one])]
      simp only
      omega

theorem toNat_toLower (c : Char) :
    c.toLower.toNat = if 65 ≤ c.toNat ∧ c.toNat ≤ 90 then c.toNat + 32 else c.toNat := by
  have hcapital : (c.val ≥ 'A'.val ∧ c.val ≤ 'Z'.val) ↔ 65 ≤ c.toNat ∧ c.toNat ≤ 90 := by
    simp only [ge_iff_le, UInt32.le_iff_toNat_le]
    rfl
  unfold Char.toLower
  split
  · next h =>
      rw [if_pos (hcapital.mp h)]
      have hle := (hcapital.mp h).2
      show (c.val + 32).toNat = c.val.toNat + 32
      rw [UInt32.toNat_add, Nat.mod_eq_of_lt]
      · rfl
      · show c.toNat + 32 < 4294967296
        omega
  · next h => rw [if_neg (mt hcapital.mpr h)]

variable {before after : List Char} {c d : Char}

theorem IsSimple.toNat_ne (hd : IsSimple d) : d.toNat ≠ 107 :=
  fun h => hd.2.2 (Char.toNat_inj.mp h)

theorem IsSimple.ofNat_eq_iff (hd : IsSimple d) {n : Nat} : Char.ofNat n = d ↔ n = d.toNat := by
  constructor
  · rintro rfl
    by_cases hvalid : n.isValidChar
    · rw [show Char.ofNat n = Char.ofNatAux n hvalid from dif_pos hvalid]
      rfl
    · -- A number that is no character gives the one with number zero, which is not a letter.
      have hzero : Char.ofNat n = Char.ofNat 0 := dif_neg hvalid
      rw [hzero] at hd
      exact absurd hd.1 (by decide)
  · rintro rfl
    exact Char.ofNat_toNat d

theorem IsSimple.toLower_eq_iff (hd : IsSimple d) :
    c.toLower = d ↔ c.toNat = d.toNat ∨ c.toNat + 32 = d.toNat := by
  obtain ⟨hge, hle, -⟩ := hd
  rw [← Char.toNat_inj, toNat_toLower]
  split <;> omega

/-- A letter has a simple letter as its small form exactly if this is its small letter in ASCII. -/
theorem IsSimple.ofNat_map_eq_iff (hd : IsSimple d) :
    Char.ofNat (mapBySpans smallSpans c.toNat) = d ↔ c.toLower = d := by
  rw [hd.ofNat_eq_iff, hd.toLower_eq_iff, mapBySpans_smallSpans_eq_iff ⟨hd.1, hd.2.1, hd.toNat_ne⟩]

/-- The two letters with a small form of their own do not become simple letters. -/
theorem smallIn_of_simple (h : ∀ x ∈ smallIn before c after, IsSimple x) :
    smallIn before c after = [c.toLower] := by
  unfold smallIn at h ⊢
  split at h
  · exact absurd (h '\u0307' (by simp)) (by decide)
  · split at h
    · split at h
      · exact absurd (h 'ς' (by simp)) (by decide)
      · exact absurd (h 'σ' (by simp)) (by decide)
    · next hdotted hsigma =>
        rw [if_neg hdotted, if_neg hsigma]
        have hsimple := h _ List.mem_cons_self
        rw [hsimple.ofNat_map_eq_iff.mp rfl]

theorem smallIn_of_toLower (h : IsSimple c.toLower) : smallIn before c after = [c.toLower] := by
  unfold smallIn
  split
  · next hdotted =>
      obtain rfl := eq_of_beq hdotted
      exact absurd h (by decide)
  · split
    · next hsigma =>
        obtain rfl := eq_of_beq hsigma
        exact absurd h (by decide)
    · rw [h.ofNat_map_eq_iff.mpr rfl]

/-! ## Words -/

theorem smallFrom_eq_iff {cs word : List Char} (hword : ∀ d ∈ word, IsSimple d) :
    smallFrom before cs = word ↔ cs.map Char.toLower = word := by
  induction cs generalizing before word with
  | nil => rfl
  | cons c rest ih =>
      rw [smallFrom_cons, List.map_cons]
      constructor
      · intro heq
        have hfirst : smallIn before c rest = [c.toLower] := by
          refine smallIn_of_simple fun x hx => hword x ?_
          rw [← heq]
          exact List.mem_append_left _ hx
        rw [hfirst, List.singleton_append] at heq
        subst heq
        rw [(ih fun d hd => hword d (List.mem_cons_of_mem _ hd)).mp rfl]
      · rintro rfl
        rw [smallIn_of_toLower (hword _ List.mem_cons_self), List.singleton_append,
          (ih fun d hd => hword d (List.mem_cons_of_mem _ hd)).mpr rfl]

/-- **The small form of a text is a word of simple letters** exactly if the text is the word, with
some letters in capitals. -/
theorem small_eq_iff {s word : String} (hword : ∀ d ∈ word.toList, IsSimple d) :
    small s = word ↔ s.toList.map Char.toLower = word.toList := by
  rw [small, ← smallFrom_eq_iff hword, ← String.toList_inj, String.toList_ofList]

end ClosingBrace.Text
