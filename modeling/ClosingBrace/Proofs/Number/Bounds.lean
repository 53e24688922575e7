import ClosingBrace.Proofs.Number.Whole

/-!
# Lower bounds of rounded numbers

Rounding never takes a number below a power of two that it has reached. Whole numbers beyond
`wholeLimit` are rounded to other whole numbers when one is taken away from them, but they stay far
above every number of lines.

## Main statements

* `two_pow_le_round`: a rounded number stays above the powers of two below it.
* `small_or_huge`: a positive whole number is a small natural number, or far above them.
-/

namespace ClosingBrace.Number

variable {n : Nat} {x : Number}

/-! ## Powers of two -/

theorem two_pow_le_roundToOrder {num den k : Nat} (h : 2 ^ k ≤ num / den) :
    2 ^ k ≤ roundToOrder num den := by
  have hne : num / den ≠ 0 := by
    have hpos := Nat.two_pow_pos k
    omega
  have hround := div_le_roundHalfEven num (den * 2 ^ order (num / den))
  rw [← Nat.div_div_eq_div_mul] at hround
  rw [roundToOrder_eq]
  by_cases hzero : order (num / den) = 0
  · rw [hzero, Nat.pow_zero, Nat.div_one] at hround
    rw [hzero, Nat.pow_zero, Nat.mul_one]
    exact Nat.le_trans h hround
  · have hdigits := le_div_two_pow_order hzero
    have hlog : k ≤ 52 + order (num / den) := by
      have hk := (Nat.le_log2 hne).mpr h
      unfold order fractionDigits at hzero ⊢
      omega
    calc 2 ^ k
        _ ≤ 2 ^ (52 + order (num / den)) := Nat.pow_le_pow_right (by decide) hlog
        _ = 2 ^ 52 * 2 ^ order (num / den) := Nat.pow_add _ _ _
        _ ≤ _ := Nat.mul_le_mul_right _ (Nat.le_trans hdigits hround)

theorem two_pow_le_overflow {j : Nat} (hj : j ≤ 1024) : ((2 ^ j : Nat) : Rat) ≤ overflow := by
  unfold overflow
  generalize (1024 : Nat) = k at hj ⊢
  exact Nat.cast_le.mpr (Nat.pow_le_pow_right (by decide) hj)

/-- **A rounded number stays above the powers of two below it.** -/
theorem two_pow_le_round {q : Rat} {j : Nat} (hj : j ≤ 1024) (h : ((2 ^ j : Nat) : Rat) ≤ q) :
    ((2 ^ j : Nat) : Rat) ≤ round q := by
  have hq : 0 ≤ q := (Nat.cast_nonneg _).trans h
  rcases round_cases hq with ⟨-, -, -, hround⟩ | hround
  · rwa [hround]
  · have hden : (0 : Rat) < q.den := Nat.cast_pos.mpr q.den_pos
    have hsteps : (0 : Rat) < steps := Nat.cast_pos.mpr steps_pos
    have hmagnitude : 2 ^ j * q.den ≤ q.num.natAbs := by
      have hcast : ((2 ^ j : Nat) : Rat) * q.den ≤ q.num.natAbs := by
        rw [natAbs_num hq]
        exact mul_le_mul_of_nonneg_right h hden.le
      exact_mod_cast hcast
    rw [hround, roundMagnitude_eq]
    refine le_min (le_of_mul_le_mul_right ?_ hsteps) (two_pow_le_overflow hj)
    rw [mkRat_mul_steps, ← Nat.cast_mul, Nat.cast_le]
    unfold steps
    -- The exponent is hidden because the power is too large to be computed.
    generalize finestPlace = place
    rw [Nat.pow_eq, ← Nat.pow_add]
    apply two_pow_le_roundToOrder
    rw [Nat.le_div_iff_mul_le q.den_pos, Nat.pow_add, Nat.mul_right_comm]
    exact Nat.mul_le_mul_right _ hmagnitude

/-! ## Huge numbers -/

/-- The number is above every natural number that is told apart from its neighbours. -/
def Huge (x : Number) : Prop := (wholeLimit : Rat) < x.toRat

theorem le_sub_one {j : Nat} (hj : j ≤ 1024) (h : ((2 ^ j : Nat) : Rat) + 1 ≤ x.toRat) :
    ((2 ^ j : Nat) : Rat) ≤ (x - 1).toRat := by
  rw [toRat_sub, toRat_one]
  exact two_pow_le_round hj (by linarith)

theorem Huge.le_sub_one (h : x.Huge) : ((2 ^ 52 : Nat) : Rat) ≤ (x - 1).toRat := by
  refine Number.le_sub_one (by decide) ?_
  calc ((2 ^ 52 : Nat) : Rat) + 1
      _ ≤ wholeLimit := by norm_num [wholeLimit]
      _ ≤ x.toRat := Rat.le_of_lt h

theorem Huge.le_sub_two (h : x.Huge) : ((2 ^ 51 : Nat) : Rat) ≤ (x - 1 - 1).toRat := by
  refine Number.le_sub_one (by decide) ?_
  calc ((2 ^ 51 : Nat) : Rat) + 1
      _ ≤ ((2 ^ 52 : Nat) : Rat) := by norm_num
      _ ≤ (x - 1).toRat := h.le_sub_one

/-- **A positive whole number** is a small natural number, or huge. -/
theorem small_or_huge (hwhole : x.isWhole = true) (hx : 0 < x) :
    (∃ n, n + 1 ≤ wholeLimit ∧ x = ofNat (n + 1)) ∨ x.Huge := by
  rcases le_or_gt x.toRat wholeLimit with hle | hgt
  · obtain ⟨n, hn, rfl⟩ := exists_eq_ofNat hwhole (le_of_lt hx) hle
    rw [ofNat_pos hn] at hx
    refine .inl ⟨n - 1, ?_, ?_⟩
    · omega
    · rw [Nat.sub_add_cancel hx]
  · exact .inr hgt

end ClosingBrace.Number
