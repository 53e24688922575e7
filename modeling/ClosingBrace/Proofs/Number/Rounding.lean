import ClosingBrace.Number.Basic
import Mathlib.Algebra.Order.Field.Rat
import Mathlib.Data.Rat.Lemmas
import Mathlib.Tactic.Linarith
import Mathlib.Tactic.FieldSimp
import Mathlib.Tactic.Ring

/-!
# Signs and bounds of rounded numbers

All doubles are whole multiples of one finest step, so two different doubles are at least that step
apart, and rounding cannot close the gap: a difference is positive, zero or negative as the numbers
compare. At the other end, no double lies between the greatest finite one and infinity, and adding
one to a whole double does not cross that gap.

## Main statements

* `sub_pos_iff`, `sub_eq_zero_iff`: a rounded difference has the sign of the exact one.
* `add_one_of_isWhole`: one more than a whole number from zero is positive and finite.
-/

namespace ClosingBrace.Number

instance : LinearOrder Number where
  le_refl x := Rat.le_refl
  le_trans _ _ _ := le_trans
  le_antisymm _ _ hxy hyx := ext_toRat (Rat.le_antisymm hxy hyx)
  le_total := le_total
  lt_iff_le_not_ge x y := lt_iff_le_not_ge (a := x.toRat)
  toDecidableLE x y := inferInstance
  toDecidableEq := inferInstance
  toDecidableLT := inferInstance

/-! ## Rounding a quotient -/

theorem div_le_roundHalfEven (num den : Nat) : num / den ≤ roundHalfEven num den := by
  unfold roundHalfEven
  grind

theorem roundHalfEven_le (num den : Nat) : roundHalfEven num den ≤ num / den + 1 := by
  unfold roundHalfEven
  grind

/-- The part below the quotient is dropped when it is less than half the divisor. -/
theorem roundHalfEven_of_lt {num den : Nat} (h : 2 * (num % den) < den) :
    roundHalfEven num den = num / den := by
  unfold roundHalfEven
  rw [if_pos h]

/-- The binary order above which a count loses digits. -/
def order (count : Nat) : Nat := Nat.log2 count - fractionDigits

theorem roundToOrder_eq (num den : Nat) :
    roundToOrder num den =
      roundHalfEven num (den * 2 ^ order (num / den)) * 2 ^ order (num / den) := rfl

theorem two_pow_order_le {count : Nat} (h : count ≠ 0) : 2 ^ order count ≤ count :=
  calc 2 ^ order count
      _ ≤ 2 ^ Nat.log2 count := Nat.pow_le_pow_right (by decide) (Nat.sub_le _ _)
      _ ≤ count := Nat.log2_self_le h

/-- A count keeps 53 binary digits. -/
theorem div_two_pow_order_lt (count : Nat) : count / 2 ^ order count < 2 ^ 53 := by
  rw [Nat.div_lt_iff_lt_mul (Nat.two_pow_pos _), ← Nat.pow_add]
  refine Nat.lt_of_lt_of_le Nat.lt_log2_self (Nat.pow_le_pow_right (by decide) ?_)
  unfold order fractionDigits
  omega

/-- A count that loses digits has 53 of them. -/
theorem le_div_two_pow_order {count : Nat} (h : order count ≠ 0) :
    2 ^ 52 ≤ count / 2 ^ order count := by
  have hne : count ≠ 0 := by
    rintro rfl
    exact h (by simp [order])
  rw [Nat.le_div_iff_mul_le (Nat.two_pow_pos _), ← Nat.pow_add]
  refine Nat.le_trans (Nat.pow_le_pow_right (by decide) ?_) (Nat.log2_self_le hne)
  unfold order fractionDigits at *
  omega

theorem roundToOrder_pos {num den : Nat} (hden : 0 < den) (h : den ≤ num) :
    0 < roundToOrder num den := by
  rw [roundToOrder_eq]
  refine Nat.mul_pos (Nat.lt_of_lt_of_le ?_ (div_le_roundHalfEven _ _)) (Nat.two_pow_pos _)
  have hquotient : num / den ≠ 0 := Nat.ne_of_gt (Nat.div_pos h hden)
  rw [← Nat.div_div_eq_div_mul]
  exact Nat.div_pos (two_pow_order_le hquotient) (Nat.two_pow_pos _)

/-! ## The gap below infinity -/

/-- The greatest order of a finite number. -/
def topOrder : Nat := 2045

/-- The greatest finite number, counted in finest steps. -/
def greatest : Nat := (2 ^ 53 - 1) * 2 ^ topOrder

theorem pow_le_greatest : 2 ^ 53 * 2 ^ (topOrder - 1) ≤ greatest := by
  unfold greatest
  rw [← Nat.pow_pred_mul (show 0 < topOrder by decide)]
  generalize 2 ^ (topOrder - 1) = s
  omega

theorem roundToOrder_le_of_order_lt {num den : Nat} (h : order (num / den) < topOrder) :
    roundToOrder num den ≤ greatest := by
  have hdigits := div_two_pow_order_lt (num / den)
  rw [Nat.div_div_eq_div_mul] at hdigits
  have hrounded := roundHalfEven_le num (den * 2 ^ order (num / den))
  rw [roundToOrder_eq]
  calc _
      _ ≤ 2 ^ 53 * 2 ^ order (num / den) := Nat.mul_le_mul_right _ (by omega)
      _ ≤ 2 ^ 53 * 2 ^ (topOrder - 1) :=
        Nat.mul_le_mul_left _ (Nat.pow_le_pow_right (by decide) (by omega))
      _ ≤ greatest := pow_le_greatest

/-- No rounded count lies between the greatest finite number and infinity. -/
theorem roundToOrder_le_or_le (num den : Nat) :
    roundToOrder num den ≤ greatest ∨ 2 ^ 53 * 2 ^ topOrder ≤ roundToOrder num den := by
  by_cases hlt : order (num / den) < topOrder
  · exact .inl (roundToOrder_le_of_order_lt hlt)
  · have hquotient := div_le_roundHalfEven num (den * 2 ^ order (num / den))
    have hne : order (num / den) ≠ 0 := by
      unfold topOrder at hlt
      omega
    have hdigits := le_div_two_pow_order hne
    rw [Nat.div_div_eq_div_mul] at hdigits
    rw [roundToOrder_eq]
    by_cases heq : order (num / den) = topOrder
    · -- At the greatest order a count keeps its 53 digits or is rounded up to infinity.
      rw [heq]
      unfold greatest
      rcases Nat.lt_or_ge (roundHalfEven num (den * 2 ^ topOrder)) (2 ^ 53) with hk | hk
      · exact .inl (Nat.mul_le_mul_right _ (by omega))
      · exact .inr (Nat.mul_le_mul_right _ hk)
    · -- Above it even the smallest count with 53 digits has left the finite numbers.
      right
      calc 2 ^ 53 * 2 ^ topOrder
          _ = 2 ^ 52 * 2 ^ (topOrder + 1) := by rw [Nat.pow_succ]; omega
          _ ≤ 2 ^ 52 * 2 ^ order (num / den) :=
            Nat.mul_le_mul_left _ (Nat.pow_le_pow_right (by decide) (by omega))
          _ ≤ _ := Nat.mul_le_mul_right _ (Nat.le_trans hdigits hquotient)

/-! ## Rounding a rational number -/

/-- How many finest steps make one. -/
def steps : Nat := Nat.pow 2 finestPlace

theorem steps_pos : 0 < steps := by
  unfold steps
  generalize finestPlace = k
  exact Nat.two_pow_pos k

theorem roundMagnitude_eq (num den : Nat) :
    roundMagnitude num den =
      min (mkRat (roundToOrder (num * steps) den) steps) overflow := by
  unfold roundMagnitude steps
  dsimp only
  rw [min_def_lt]
  split
  · next h => rw [if_neg (not_lt.mpr h)]
  · next h => rw [if_pos (not_le.mp h)]

theorem overflow_pos : 0 < overflow := by
  unfold overflow
  generalize (1024 : Nat) = k
  exact Nat.cast_pos.mpr (Nat.two_pow_pos k)

/-- A magnitude of at least one finest step does not round to zero. -/
theorem roundMagnitude_pos {num den : Nat} (hden : 0 < den) (h : den ≤ num * steps) :
    0 < roundMagnitude num den := by
  rw [roundMagnitude_eq, Rat.mkRat_eq_div]
  have hcount : (0 : Rat) < (roundToOrder (num * steps) den : Int) := by
    exact_mod_cast roundToOrder_pos hden h
  have hsteps : (0 : Rat) < steps := by exact_mod_cast steps_pos
  exact lt_min (div_pos hcount hsteps) overflow_pos

/-- The doubles are multiples of the finest step. -/
theorem round_mul_steps (q : Rat) : ∃ k : Int, round q * steps = k := by
  have hsteps : (steps : Rat) ≠ 0 := by exact_mod_cast steps_pos.ne'
  have hmagnitude (num den : Nat) : ∃ k : Int, roundMagnitude num den * steps = k := by
    rw [roundMagnitude_eq]
    rcases min_choice (mkRat (roundToOrder (num * steps) den) steps) overflow with h | h
    · refine ⟨roundToOrder (num * steps) den, ?_⟩
      rw [h, Rat.mkRat_eq_div, div_mul_cancel₀ _ hsteps]
    · refine ⟨(Nat.pow 2 1024 : Nat) * steps, ?_⟩
      rw [h, overflow]
      push_cast
      rfl
  unfold round
  split
  · next h =>
      have hwhole : (q.num : Rat) = q := by
        simp only [isSmallWhole, Bool.and_eq_true, beq_iff_eq] at h
        exact Rat.den_eq_one_iff _ |>.mp h.1
      refine ⟨q.num * steps, ?_⟩
      push_cast
      rw [hwhole]
  · split
    · obtain ⟨k, hk⟩ := hmagnitude q.num.natAbs q.den
      refine ⟨-k, ?_⟩
      push_cast
      rw [← hk, neg_mul]
    · exact hmagnitude q.num.natAbs q.den

theorem round_neg (q : Rat) : round (-q) = -round q := by
  unfold round isSmallWhole
  rw [Rat.num_neg_eq_neg_num, Rat.den_neg_eq_den, Int.natAbs_neg]
  split
  · rfl
  · rcases lt_trichotomy q 0 with h | rfl | h
    · rw [if_neg (by linarith), if_pos h, neg_neg]
    · simp_all
    · rw [if_pos (by linarith), if_neg (by linarith)]

theorem natAbs_num {q : Rat} (hq : 0 ≤ q) : (q.num.natAbs : Rat) = q * q.den := by
  rw [Rat.mul_den_eq_num, ← Int.cast_natCast, Int.natAbs_of_nonneg (Rat.num_nonneg.mpr hq)]

/-- Rounding keeps the sign of everything that is at least one finest step away from zero. -/
theorem round_pos {q : Rat} (h : 1 ≤ q * steps) : 0 < round q := by
  have hq : 0 < q := by
    have hsteps : (0 : Rat) < steps := Nat.cast_pos.mpr steps_pos
    exact pos_of_mul_pos_left (by linarith) hsteps.le
  unfold round
  rw [if_neg (not_lt.mpr hq.le)]
  split
  · exact hq
  · refine roundMagnitude_pos q.den_pos ?_
    have hden : (0 : Rat) < q.den := Nat.cast_pos.mpr q.den_pos
    have hcast : (q.den : Rat) ≤ q.num.natAbs * steps := by
      rw [natAbs_num hq.le]
      nlinarith
    exact_mod_cast hcast

/-! ## Differences -/

/-- The doubles lie at least one finest step apart. -/
theorem one_le_sub_mul_steps {x y : Number} (h : y < x) : 1 ≤ (x.toRat - y.toRat) * steps := by
  obtain ⟨p, hp⟩ := x.rounded
  obtain ⟨q, hq⟩ := y.rounded
  obtain ⟨j, hj⟩ := round_mul_steps p
  obtain ⟨k, hk⟩ := round_mul_steps q
  rw [hp] at hj
  rw [hq] at hk
  have hsteps : (0 : Rat) < steps := Nat.cast_pos.mpr steps_pos
  have hlt : (k : Rat) < j := by
    rw [← hj, ← hk]
    exact mul_lt_mul_of_pos_right (lt_iff.mp h) hsteps
  have hle : (k : Rat) + 1 ≤ j := by exact_mod_cast Int.cast_lt.mp hlt
  rw [sub_mul, hj, hk]
  linarith

@[simp] theorem toRat_zero : (0 : Number).toRat = 0 :=
  (round_natCast (Nat.zero_le _)).trans Nat.cast_zero

theorem toRat_one : (1 : Number).toRat = 1 := (round_natCast (by decide)).trans Nat.cast_one

/-- **The difference of two doubles is positive exactly when the first is greater.** -/
theorem sub_pos_iff {x y : Number} : 0 < x - y ↔ y < x := by
  have hpos {x y : Number} (h : y < x) : 0 < x - y := by
    rw [lt_iff, toRat_zero, toRat_sub]
    exact round_pos (one_le_sub_mul_steps h)
  refine ⟨fun h => ?_, hpos⟩
  -- Were `x` not the greater one, the opposite difference would be positive or both zero.
  by_contra hnot
  rcases (not_lt.mp hnot : x.toRat ≤ y.toRat).eq_or_lt with heq | hlt
  · rw [lt_iff, toRat_zero, toRat_sub, heq, sub_self, round_of_small (by decide)] at h
    exact lt_irrefl _ h
  · have hneg := hpos (lt_iff.mpr hlt)
    rw [lt_iff, toRat_zero, toRat_sub] at h hneg
    rw [← neg_sub, round_neg] at h
    linarith

/-- The difference of two doubles is zero only if they are equal. -/
theorem sub_eq_zero_iff {x y : Number} : x - y = 0 ↔ x = y := by
  constructor
  · intro h
    refine ext_toRat (le_antisymm ?_ ?_)
    · refine not_lt.mp fun hlt => ?_
      have hpos := sub_pos_iff.mpr (lt_iff.mpr hlt)
      rw [h, lt_iff] at hpos
      exact lt_irrefl _ hpos
    · refine not_lt.mp fun hlt => ?_
      have hneg := one_le_sub_mul_steps (lt_iff.mpr hlt)
      have hpos := round_pos hneg
      rw [← neg_sub, round_neg, ← toRat_sub, h, toRat_zero, neg_zero] at hpos
      exact lt_irrefl _ hpos
  · rintro rfl
    refine ext_toRat ?_
    rw [toRat_sub, sub_self, toRat_zero, round_of_small (by decide)]

/-! ## Successors -/

theorem overflow_mul_steps : overflow * steps = (2 ^ 53 * 2 ^ topOrder : Nat) := by
  unfold overflow steps
  generalize hk : (1024 : Nat) = k
  have hsum : k + finestPlace = 53 + topOrder := hk ▸ rfl
  rw [← Nat.cast_mul, Nat.pow_eq, Nat.pow_eq, ← Nat.pow_add, ← Nat.pow_add, hsum]

theorem greatest_lt : greatest < 2 ^ 53 * 2 ^ topOrder := by
  unfold greatest
  generalize topOrder = k
  exact Nat.mul_lt_mul_of_pos_right (by decide) (Nat.two_pow_pos k)

/-- A count of finest steps up to the greatest one is below infinity. -/
theorem lt_overflow_of_count {q : Rat} {count : Nat} (hq : q * steps = count)
    (hcount : count ≤ greatest) : q < overflow := by
  have hsteps : (0 : Rat) < steps := Nat.cast_pos.mpr steps_pos
  refine lt_of_mul_lt_mul_right ?_ hsteps.le
  rw [hq, overflow_mul_steps, Nat.cast_lt]
  exact Nat.lt_of_le_of_lt hcount greatest_lt

theorem mkRat_mul_steps (count : Nat) : mkRat count steps * steps = count := by
  have hsteps : (steps : Rat) ≠ 0 := Nat.cast_ne_zero.mpr steps_pos.ne'
  rw [Rat.mkRat_eq_div, div_mul_cancel₀ _ hsteps]
  rfl

/-- A finite magnitude is at most the greatest one. -/
theorem roundMagnitude_mul_steps_le {num den : Nat} (h : roundMagnitude num den < overflow) :
    roundMagnitude num den * steps ≤ greatest := by
  rw [roundMagnitude_eq] at h ⊢
  have hlt := (min_lt_iff.mp h).resolve_right (lt_irrefl _)
  rw [min_eq_left hlt.le, mkRat_mul_steps, Nat.cast_le]
  refine (roundToOrder_le_or_le _ _).resolve_right fun hge => ?_
  have hsteps : (0 : Rat) < steps := Nat.cast_pos.mpr steps_pos
  have hcount := mul_lt_mul_of_pos_right hlt hsteps
  rw [mkRat_mul_steps, overflow_mul_steps, Nat.cast_lt] at hcount
  exact absurd hcount (Nat.not_lt_of_le hge)

theorem roundMagnitude_nonneg (num den : Nat) : 0 ≤ roundMagnitude num den := by
  rw [roundMagnitude_eq, Rat.mkRat_eq_div]
  have hsteps : (0 : Rat) ≤ steps := Nat.cast_nonneg _
  exact le_min (div_nonneg (Int.cast_nonneg (Int.natCast_nonneg _)) hsteps) overflow_pos.le

/-- One is far below the step of the greatest order. -/
theorem four_mul_steps_le : 4 * steps ≤ 2 ^ topOrder := by
  unfold steps
  generalize hk : finestPlace = k
  have hplace : 2 + k ≤ topOrder := hk ▸ (by decide : 2 + finestPlace ≤ topOrder)
  rw [Nat.pow_eq, show 4 = 2 ^ 2 from rfl, ← Nat.pow_add]
  exact Nat.pow_le_pow_right (by decide) hplace

theorem steps_le : steps ≤ 2 ^ (topOrder - 1) := by
  have hsteps := four_mul_steps_le
  rw [← Nat.pow_pred_mul (show 0 < topOrder by decide)] at hsteps
  generalize 2 ^ (topOrder - 1) = half at *
  omega

theorem eq_natAbs_of_whole {q : Rat} (hq : 0 ≤ q) (hwhole : q.den = 1) : q = q.num.natAbs := by
  rw [← Int.cast_natCast, Int.natAbs_of_nonneg (Rat.num_nonneg.mpr hq)]
  exact ((Rat.den_eq_one_iff _).mp hwhole).symm

/-- Rounding a number from zero either keeps it, as a small whole number, or rounds its
magnitude. -/
theorem round_cases {q : Rat} (hq : 0 ≤ q) :
    (∃ n : Nat, q = n ∧ n * steps ≤ greatest ∧ round q = q) ∨
      round q = roundMagnitude q.num.natAbs q.den := by
  unfold round
  split
  · next h =>
      simp only [isSmallWhole, Bool.and_eq_true, beq_iff_eq, decide_eq_true_eq] at h
      refine .inl ⟨q.num.natAbs, eq_natAbs_of_whole hq h.1, ?_, rfl⟩
      have hlimit : q.num.natAbs ≤ 2 ^ 53 := h.2
      exact Nat.le_trans (Nat.mul_le_mul hlimit steps_le) pow_le_greatest
  · rw [if_neg (not_lt.mpr hq)]
    exact .inr rfl

/-- A finite double is at most the greatest one. -/
theorem toRat_mul_steps_le {x : Number} (hfinite : x.toRat < overflow) :
    x.toRat * steps ≤ greatest := by
  obtain ⟨q, hq⟩ := x.rounded
  rw [← hq] at hfinite ⊢
  rcases le_or_gt 0 q with hpos | hneg
  · rcases round_cases hpos with ⟨n, rfl, hn, hround⟩ | hround
    · rw [hround]
      exact_mod_cast hn
    · rw [hround] at hfinite ⊢
      exact roundMagnitude_mul_steps_le hfinite
  · have hsteps : (0 : Rat) < steps := Nat.cast_pos.mpr steps_pos
    have hnonpos : round q ≤ 0 := by
      unfold round
      split
      · exact hneg.le
      · rw [neg_nonpos]
        exact roundMagnitude_nonneg _ _
    have hgreatest : (0 : Rat) ≤ greatest := Nat.cast_nonneg _
    nlinarith

/-- One more than the greatest count rounds down to it. -/
theorem roundToOrder_succ_le {count : Nat} (h : count ≤ greatest + steps) :
    roundToOrder count 1 ≤ greatest := by
  by_cases hlt : order (count / 1) < topOrder
  · exact roundToOrder_le_of_order_lt hlt
  · have hsteps := four_mul_steps_le
    have hpos := steps_pos
    have hdigits := div_two_pow_order_lt count
    -- Adding one does not add a digit, so the order is the greatest one and not above it.
    have heq : order count = topOrder := by
      rw [Nat.div_one] at hlt
      refine Nat.le_antisymm ?_ (Nat.le_of_not_lt hlt)
      have hcount : count < 2 ^ (53 + topOrder) := by
        rw [Nat.pow_add]
        unfold greatest at h
        omega
      have hne : count ≠ 0 := by
        rintro rfl
        exact hlt (by decide)
      have hlog := (Nat.log2_lt hne).mpr hcount
      unfold order fractionDigits
      omega
    rw [roundToOrder_eq, Nat.div_one, heq, Nat.one_mul]
    rw [heq] at hdigits
    unfold greatest at h ⊢
    generalize 2 ^ topOrder = top at *
    refine Nat.mul_le_mul_right _ ?_
    have hsplit := Nat.div_add_mod count top
    by_cases hlow : count / top < 2 ^ 53 - 1
    · exact Nat.le_trans (roundHalfEven_le _ _) hlow
    · -- The quotient is as great as it can be, so what is left over is one at most.
      have hquotient : count / top = 2 ^ 53 - 1 := by omega
      rw [hquotient] at hsplit
      rw [roundHalfEven_of_lt (by omega), hquotient]

theorem round_lt_overflow {q : Rat} (hq : 0 ≤ q) (hwhole : q.den = 1)
    (h : q * steps ≤ greatest + steps) : round q < overflow := by
  rcases round_cases hq with ⟨n, rfl, hn, hround⟩ | hround
  · rw [hround]
    exact lt_overflow_of_count (Nat.cast_mul n steps).symm hn
  · rw [eq_natAbs_of_whole hq hwhole] at h
    have hcount : q.num.natAbs * steps ≤ greatest + steps := by exact_mod_cast h
    rw [hround, hwhole, roundMagnitude_eq]
    refine min_lt_of_left_lt ?_
    exact lt_overflow_of_count (mkRat_mul_steps _) (roundToOrder_succ_le hcount)

/-- **One more than a whole number from zero is positive and finite.** -/
theorem add_one_of_isWhole {x : Number} (hwhole : x.isWhole = true) (hx : 0 ≤ x) :
    0 < x + 1 ∧ (x + 1).isFinite = true := by
  simp only [isWhole, isFinite, Bool.and_eq_true, decide_eq_true_eq, beq_iff_eq] at hwhole
  rw [le_iff, toRat_zero] at hx
  have hsum : (x.toRat + 1).den = 1 := by
    rw [eq_natAbs_of_whole hx hwhole.2]
    exact_mod_cast Rat.den_natCast (x.toRat.num.natAbs + 1)
  have hsteps : (1 : Rat) ≤ steps := Nat.one_le_cast.mpr steps_pos
  have hpos : 0 < x + 1 := by
    rw [lt_iff, toRat_zero, toRat_add, toRat_one]
    exact round_pos (by nlinarith)
  refine ⟨hpos, ?_⟩
  rw [lt_iff, toRat_zero] at hpos
  simp only [isFinite, Bool.and_eq_true, decide_eq_true_eq]
  refine ⟨(neg_neg_of_pos overflow_pos).trans hpos, ?_⟩
  rw [toRat_add, toRat_one]
  refine round_lt_overflow (by linarith) hsum ?_
  have hgreatest := toRat_mul_steps_le hwhole.1.2
  linarith

end ClosingBrace.Number
