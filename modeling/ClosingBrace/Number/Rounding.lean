/-!
# Rounding to double precision

A number in a document, in an option or in a diagnostic is a double-precision value. This file
says which rational numbers those are: `round` sends every rational to the nearest double, a half
to the even neighbour, and a magnitude of `2 ^ 1024` or more to `2 ^ 1024`, which stands for
infinity. All arithmetic is exact arithmetic on natural numbers.

## Main statements

* `roundHalfEven_mul`: an exact multiple of the step is kept.
* `round_of_small`: a whole number of magnitude at most `wholeLimit` is kept.
-/

namespace ClosingBrace.Number

/-- The natural number nearest to `num / den`; a half goes to the even neighbour. -/
def roundHalfEven (num den : Nat) : Nat :=
  let quotient := num / den
  let rest := num % den
  if 2 * rest < den then quotient
  else if den < 2 * rest then quotient + 1
  else if quotient % 2 = 0 then quotient
  else quotient + 1

/-- The finest step a double can take is `2 ^ -finestPlace`. -/
def finestPlace : Nat := 1074

/-- The binary digits a double keeps below its leading one. -/
def fractionDigits : Nat := 52

/-- The least magnitude that no double reaches; it stands for infinity. -/
def overflow : Rat := (Nat.pow 2 1024 : Nat)

/-- Every whole number up to this magnitude is a double; it is `2 ^ 53`. -/
def wholeLimit : Nat := 9007199254740992

/-- `num / den`, counted in steps of its own binary order: the count keeps 53 binary digits, fewer
when the steps would become finer than one. -/
def roundToOrder (num den : Nat) : Nat :=
  let order := Nat.log2 (num / den) - fractionDigits
  roundHalfEven num (den * Nat.pow 2 order) * Nat.pow 2 order

/-- The double nearest to the non-negative rational `num / den`: the count of finest steps, rounded
to its order, with everything from `overflow` on taken together. -/
def roundMagnitude (num den : Nat) : Rat :=
  let steps := Nat.pow 2 finestPlace
  let value := mkRat (roundToOrder (num * steps) den) steps
  if overflow ≤ value then overflow else value

/-- A whole number that a double holds exactly because it has at most 53 binary digits. -/
def isSmallWhole (q : Rat) : Bool := q.den == 1 && q.num.natAbs ≤ wholeLimit

/-- The double nearest to `q`. -/
def round (q : Rat) : Rat :=
  if isSmallWhole q then q
  else if q < 0 then -roundMagnitude q.num.natAbs q.den
  else roundMagnitude q.num.natAbs q.den

/-! ### What rounding keeps -/

/-- A multiple of the step lies on the grid already. -/
theorem roundHalfEven_mul (n den : Nat) (h : 0 < den) : roundHalfEven (n * den) den = n := by
  simp [roundHalfEven, Nat.mul_div_cancel _ h, h]

theorem round_of_small {q : Rat} (h : isSmallWhole q = true) : round q = q := by
  simp [round, h]

/-- Small whole numbers are doubles. -/
theorem round_natCast {n : Nat} (h : n ≤ wholeLimit) : round (n : Rat) = n := by
  apply round_of_small
  simp [isSmallWhole, h]

end ClosingBrace.Number
