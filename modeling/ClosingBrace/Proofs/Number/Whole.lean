import ClosingBrace.Proofs.Number.Rounding

/-!
# Small whole numbers

Up to `wholeLimit` every whole number is a double. Numbers in that range are natural numbers under
another name: order, sums and differences are those of the naturals, nothing is rounded, and reading
the natural number back gives it again.

## Main statements

* `exists_eq_ofNat`: a whole number from zero up to the limit is a natural number.
* `ofNat_add_ofNat`, `ofNat_sub_ofNat`, `ofNat_lt_ofNat`: arithmetic and order below the limit.
* `toNat?_ofNat`, `truncate_of_toNat?`: the natural number that a number is read as.
-/

namespace ClosingBrace.Number

variable {m n : Nat}

theorem eq_ofNat {x : Number} (hn : n ≤ wholeLimit) (hx : x.toRat = n) : x = ofNat n :=
  ext_toRat (hx.trans (toRat_ofNat_of_small hn).symm)

/-- A whole number from zero up to the limit is a natural number. -/
theorem exists_eq_ofNat {x : Number} (hwhole : x.isWhole = true) (hx : 0 ≤ x)
    (hlimit : x.toRat ≤ wholeLimit) : ∃ n ≤ wholeLimit, x = ofNat n := by
  simp only [isWhole, Bool.and_eq_true, beq_iff_eq] at hwhole
  rw [le_iff, toRat_zero] at hx
  have hnat := eq_natAbs_of_whole hx hwhole.2
  rw [hnat] at hlimit
  have hle : x.toRat.num.natAbs ≤ wholeLimit := by exact_mod_cast hlimit
  exact ⟨_, hle, eq_ofNat hle hnat⟩

/-! ## Order and arithmetic -/

theorem ofNat_lt_ofNat (hm : m ≤ wholeLimit) (hn : n ≤ wholeLimit) :
    ofNat m < ofNat n ↔ m < n := by
  rw [lt_iff, toRat_ofNat_of_small hm, toRat_ofNat_of_small hn, Nat.cast_lt]

theorem ofNat_le_ofNat (hm : m ≤ wholeLimit) (hn : n ≤ wholeLimit) :
    ofNat m ≤ ofNat n ↔ m ≤ n := by
  rw [le_iff, toRat_ofNat_of_small hm, toRat_ofNat_of_small hn, Nat.cast_le]

theorem ofNat_inj (hm : m ≤ wholeLimit) (hn : n ≤ wholeLimit) : ofNat m = ofNat n ↔ m = n := by
  refine ⟨fun h => ?_, congrArg ofNat⟩
  have hcast := congrArg toRat h
  rw [toRat_ofNat_of_small hm, toRat_ofNat_of_small hn] at hcast
  exact Nat.cast_inj.mp hcast

/-- A sum below the limit is not rounded. -/
theorem ofNat_add_ofNat (h : m + n ≤ wholeLimit) : ofNat m + ofNat n = ofNat (m + n) := by
  refine ext_toRat ?_
  rw [toRat_add, toRat_ofNat_of_small (by omega), toRat_ofNat_of_small (by omega),
    toRat_ofNat_of_small h, ← Nat.cast_add, round_natCast h]

theorem ofNat_sub_ofNat (hm : m ≤ wholeLimit) (h : n ≤ m) :
    ofNat m - ofNat n = ofNat (m - n) := by
  refine ext_toRat ?_
  rw [toRat_sub, toRat_ofNat_of_small hm, toRat_ofNat_of_small (by omega),
    toRat_ofNat_of_small (by omega), ← Nat.cast_sub h, round_natCast (by omega)]

theorem ofNat_add_one (h : n + 1 ≤ wholeLimit) : ofNat n + 1 = ofNat (n + 1) :=
  ofNat_add_ofNat h

theorem ofNat_sub_one (h : n + 1 ≤ wholeLimit) : ofNat (n + 1) - 1 = ofNat n :=
  ofNat_sub_ofNat h (Nat.le_add_left 1 n)

theorem ofNat_pos (h : n ≤ wholeLimit) : 0 < ofNat n ↔ 0 < n :=
  ofNat_lt_ofNat (Nat.zero_le _) h

theorem not_ofNat_lt_zero (h : n ≤ wholeLimit) : ¬ ofNat n < 0 := by
  intro hlt
  exact Nat.not_lt_zero n ((ofNat_lt_ofNat h (Nat.zero_le _)).mp hlt)

/-- Numbers that grow by the same amount keep their order. -/
theorem ofNat_add_lt_iff {d : Nat} (hm : m + d ≤ wholeLimit) (hn : n + d ≤ wholeLimit) :
    ofNat m + ofNat d < ofNat n + ofNat d ↔ ofNat m < ofNat n := by
  rw [ofNat_add_ofNat hm, ofNat_add_ofNat hn, ofNat_lt_ofNat hm hn,
    ofNat_lt_ofNat (by omega) (by omega), Nat.add_lt_add_iff_right]

theorem ofNat_add_le_iff {d : Nat} (hm : m + d ≤ wholeLimit) (hn : n + d ≤ wholeLimit) :
    ofNat m + ofNat d ≤ ofNat n + ofNat d ↔ ofNat m ≤ ofNat n := by
  rw [ofNat_add_ofNat hm, ofNat_add_ofNat hn, ofNat_le_ofNat hm hn,
    ofNat_le_ofNat (by omega) (by omega), Nat.add_le_add_iff_right]

/-- Numbers that grow by the same amount stay apart. -/
theorem ofNat_add_inj {d : Nat} (hm : m + d ≤ wholeLimit) (hn : n + d ≤ wholeLimit) :
    ofNat m + ofNat d = ofNat n + ofNat d ↔ ofNat m = ofNat n := by
  rw [ofNat_add_ofNat hm, ofNat_add_ofNat hn, ofNat_inj hm hn, ofNat_inj (by omega) (by omega),
    Nat.add_right_cancel_iff]

/-! ## Reading a natural number back -/

theorem wholeLimit_lt_overflow : (wholeLimit : Rat) < overflow := by
  unfold overflow
  -- The exponent is hidden because the power is too large to be computed.
  generalize hk : (1024 : Nat) = k
  have hlt : 53 < k := by omega
  exact Nat.cast_lt.mpr (Nat.pow_lt_pow_right (a := 2) Nat.one_lt_two hlt)

theorem isWhole_ofNat (h : n ≤ wholeLimit) : (ofNat n).isWhole = true := by
  have hlt : (n : Rat) < overflow := (Nat.cast_le.mpr h).trans_lt wholeLimit_lt_overflow
  have hneg : -overflow < n := (neg_neg_of_pos overflow_pos).trans_le (Nat.cast_nonneg n)
  simp [isWhole, isFinite, toRat_ofNat_of_small h, hlt, hneg]

theorem isFinite_of_isWhole {x : Number} (h : x.isWhole = true) : x.isFinite = true := by
  unfold isWhole at h
  exact (Bool.and_eq_true_iff.mp h).1

theorem toNat?_ofNat (h : n ≤ wholeLimit) : (ofNat n).toNat? = some n := by
  unfold toNat?
  rw [isWhole_ofNat h, toRat_ofNat_of_small h]
  simp

theorem exists_toNat? {x : Number} (hwhole : x.isWhole = true) (hx : 0 ≤ x) :
    ∃ n, x.toNat? = some n := by
  rw [le_iff, toRat_zero] at hx
  simp [toNat?, hwhole, hx]

theorem toRat_of_toNat? {x : Number} (h : x.toNat? = some n) : x.toRat = n := by
  unfold toNat? at h
  split at h
  · next hx =>
      simp only [isWhole, Bool.and_eq_true, beq_iff_eq, decide_eq_true_eq] at hx
      obtain ⟨⟨-, hden⟩, hnonneg⟩ := hx
      cases h
      rw [← Int.cast_natCast, Int.toNat_of_nonneg (Rat.num_nonneg.mpr hnonneg)]
      exact ((Rat.den_eq_one_iff _).mp hden).symm
  · cases h

/-- What is read as a natural number is that number when its fraction is cut off, too. -/
theorem truncate_of_toNat? {x : Number} (h : x.toNat? = some n) : x.truncate = n := by
  have hx := toRat_of_toNat? h
  rw [truncate, hx, if_pos (Nat.cast_nonneg n), Rat.floor_def, Rat.num_natCast, Rat.den_natCast,
    Nat.cast_one, Int.ediv_one]

theorem truncate_ofNat (h : n ≤ wholeLimit) : (ofNat n).truncate.toNat = n := by
  rw [truncate_of_toNat? (toNat?_ofNat h), Int.toNat_natCast]

end ClosingBrace.Number
