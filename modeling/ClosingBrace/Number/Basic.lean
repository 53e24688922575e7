import ClosingBrace.Number.Rounding

/-!
# Double-precision numbers

A `Number` is a rational number that rounding yields. Lines, columns, handles written in a document
and message arguments are of this type. Order and equality are those of the rationals; a sum is
rounded. `2 ^ 1024` and its negative stand for the two infinities, so that a number too large to
write is still a number, only not a finite one. NaN is no `Number`; a `Double` can be NaN.

## Main statements

* `ext_toRat`: a number is determined by its rational value.
* `le_total`, `lt_trans`: the order is that of the values.
* `toRat_ofNat_of_small`, `toRat_add`: what arithmetic does to that value.
-/

namespace ClosingBrace

/-- A double-precision value, held as the rational number it stands for. -/
structure Number where
  /-- The exact value. -/
  toRat : Rat
  /-- The value is a result of rounding. -/
  rounded : ∃ q, Number.round q = toRat
deriving DecidableEq

namespace Number

def ofRat (q : Rat) : Number := ⟨round q, q, rfl⟩

def ofNat (n : Nat) : Number := ofRat n

instance : Inhabited Number := ⟨ofNat 0⟩
instance (n : Nat) : OfNat Number n := ⟨ofNat n⟩
instance : Add Number := ⟨fun x y => ofRat (x.toRat + y.toRat)⟩
instance : Sub Number := ⟨fun x y => ofRat (x.toRat - y.toRat)⟩
instance : Neg Number := ⟨fun x => ofRat (-x.toRat)⟩
instance : LT Number := ⟨fun x y => x.toRat < y.toRat⟩
instance : LE Number := ⟨fun x y => x.toRat ≤ y.toRat⟩
instance (x y : Number) : Decidable (x < y) := inferInstanceAs (Decidable (x.toRat < y.toRat))
instance (x y : Number) : Decidable (x ≤ y) := inferInstanceAs (Decidable (x.toRat ≤ y.toRat))

/-- The number that stands for everything too large to write. -/
def infinity : Number := ofRat overflow

def isFinite (x : Number) : Bool := -overflow < x.toRat && x.toRat < overflow

/-- Finite, and without a fractional part. -/
def isWhole (x : Number) : Bool := x.isFinite && x.toRat.den == 1

/-- The natural number that `x` stands for, if it is one. -/
def toNat? (x : Number) : Option Nat :=
  if x.isWhole && 0 ≤ x.toRat then some x.toRat.num.toNat else none

/-- The whole number next to `x` on the side of zero. -/
def truncate (x : Number) : Int :=
  if 0 ≤ x.toRat then x.toRat.floor else -(-x.toRat).floor

/-! ### Numbers and their values -/

theorem ext_toRat {x y : Number} (h : x.toRat = y.toRat) : x = y := by
  cases x; cases y; cases h; rfl

theorem lt_iff {x y : Number} : x < y ↔ x.toRat < y.toRat := Iff.rfl

theorem le_iff {x y : Number} : x ≤ y ↔ x.toRat ≤ y.toRat := Iff.rfl

theorem le_trans {x y z : Number} (hxy : x ≤ y) (hyz : y ≤ z) : x ≤ z := Rat.le_trans hxy hyz

theorem le_total (x y : Number) : x ≤ y ∨ y ≤ x := Rat.le_total

theorem lt_of_le_of_ne {x y : Number} (hle : x ≤ y) (hne : x ≠ y) : x < y :=
  Rat.lt_of_le_of_ne hle fun h => hne (ext_toRat h)

theorem lt_trans {x y z : Number} (hxy : x < y) (hyz : y < z) : x < z := by
  refine lt_of_le_of_ne (le_trans (Rat.le_of_lt hxy) (Rat.le_of_lt hyz)) fun h => ?_
  subst h
  exact (Rat.lt_iff_le_and_ne.1 hxy).2 (Rat.le_antisymm (Rat.le_of_lt hxy) (Rat.le_of_lt hyz))

@[simp] theorem toRat_ofRat (q : Rat) : (ofRat q).toRat = round q := rfl

@[simp] theorem toRat_add (x y : Number) : (x + y).toRat = round (x.toRat + y.toRat) := rfl

@[simp] theorem toRat_sub (x y : Number) : (x - y).toRat = round (x.toRat - y.toRat) := rfl

/-- Up to the limit a natural number is its own double. -/
theorem toRat_ofNat_of_small {n : Nat} (h : n ≤ wholeLimit) : (ofNat n).toRat = n :=
  round_natCast h

end Number
end ClosingBrace
