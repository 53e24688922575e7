import ClosingBrace.Number.Basic

/-!
# Doubles that need not be numbers

Whoever adds a node to a tree by hand can give it any line and any column. A `Double` is a number or
NaN, which is not less than anything, and nothing is less than it or equal to it, not even NaN.

## Main statements

* `number_lt_number`, `number_beq_number`: numbers compare as numbers.
* `not_nan_lt`, `not_lt_nan`: NaN has no place in their order.
-/

namespace ClosingBrace

/-- A double-precision value. -/
inductive Double where
  | number (x : Number)
  | nan

namespace Double

/-- The number that a double is, and zero for NaN. -/
def value : Double → Number
  | number x => x
  | nan => 0

def isNumber : Double → Bool
  | number _ => true
  | nan => false

instance : Inhabited Double := ⟨number 0⟩
instance (n : Nat) : OfNat Double n := ⟨number (.ofNat n)⟩
instance : LT Double := ⟨fun x y => x.isNumber ∧ y.isNumber ∧ x.value < y.value⟩
instance : BEq Double := ⟨fun x y => x.isNumber && y.isNumber && x.value == y.value⟩
instance (x y : Double) : Decidable (x < y) :=
  inferInstanceAs (Decidable (x.isNumber ∧ y.isNumber ∧ x.value < y.value))

/-! ### Laws -/

theorem lt_iff {x y : Double} : x < y ↔ x.isNumber ∧ y.isNumber ∧ x.value < y.value := Iff.rfl

theorem beq_iff {x y : Double} : x == y ↔ x.isNumber ∧ y.isNumber ∧ x.value = y.value := by
  show (x.isNumber && y.isNumber && x.value == y.value) = true ↔ _
  rw [Bool.and_eq_true, Bool.and_eq_true, beq_iff_eq, and_assoc]

theorem number_lt_number {x y : Number} : number x < number y ↔ x < y := by
  simp [lt_iff, isNumber, value]

theorem number_beq_number {x y : Number} : number x == number y ↔ x = y := by
  simp [beq_iff, isNumber, value]

theorem not_nan_lt (x : Double) : ¬ nan < x := by simp [lt_iff, isNumber]

theorem not_lt_nan (x : Double) : ¬ x < nan := by simp [lt_iff, isNumber]

end Double
end ClosingBrace
