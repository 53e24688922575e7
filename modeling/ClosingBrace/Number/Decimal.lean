import ClosingBrace.Number.Basic

/-!
# Decimal text of a number

A number is written with the fewest significant digits that read back as the same double; of two
such decimals the nearer one is taken, and of two equally near ones the one with the even last
digit. Small whole numbers are written in full. `Layout` says where positional notation ends and
exponents begin.

In the other direction `ofDecimal` reads a decimal fraction with an exponent. Exponents may be of
any size: far outside the range of doubles they give infinity or zero without computing the power.
-/

namespace ClosingBrace.Number

/-! ### Powers of ten and the decimal order -/

def powerOfTen (e : Int) : Rat :=
  if 0 ≤ e then (Nat.pow 10 e.toNat : Nat) else mkRat 1 (Nat.pow 10 (-e).toNat)

/-- The number of decimal digits of a natural number; zero has one. -/
def digitCount (n : Nat) : Nat := (Nat.toDigits 10 n).length

/-- The exponent `p` with `10 ^ p ≤ q < 10 ^ (p + 1)`, for positive `q`. The digit counts of
numerator and denominator leave two candidates. -/
def decimalOrder (q : Rat) : Int :=
  let guess : Int := (digitCount q.num.natAbs : Int) - digitCount q.den
  if powerOfTen guess ≤ q then guess else guess - 1

/-! ### The shortest decimal -/

/-- The decimal `mantissa * 10 ^ exponent`. -/
structure Decimal where
  mantissa : Nat
  exponent : Int
deriving DecidableEq, Repr

def Decimal.toRat (d : Decimal) : Rat := (d.mantissa : Rat) * powerOfTen d.exponent

/-- A decimal reads back as `q` when `q` is the double nearest to it. -/
def Decimal.readsBack (q : Rat) (d : Decimal) : Bool := round d.toRat == q

/-- The multiple of `10 ^ exponent` that is to be written for `q`: whichever of the two neighbours
of `q` reads back as `q`, the nearer one if both do. -/
def nearestOnGrid? (q : Rat) (exponent : Int) : Option Decimal :=
  let count := (q / powerOfTen exponent).floor.toNat
  let below : Decimal := ⟨count, exponent⟩
  let above : Decimal := ⟨count + 1, exponent⟩
  let distanceBelow := q - below.toRat
  let distanceAbove := above.toRat - q
  if below.readsBack q then
    if above.readsBack q then
      if distanceBelow < distanceAbove then some below
      else if distanceAbove < distanceBelow then some above
      else if count % 2 = 0 then some below
      else some above
    else some below
  else if above.readsBack q then some above
  else none

/-- Tries ever finer grids, with `digits` significant digits and more; `finer` bounds the number of
further tries. -/
def shortestFrom (q : Rat) (order : Int) (digits : Nat) : Nat → Decimal
  | 0 => ⟨(q / powerOfTen (order - digits + 1)).floor.toNat, order - digits + 1⟩
  | finer + 1 =>
    match nearestOnGrid? q (order - digits + 1) with
    | some d => d
    | none => shortestFrom q order (digits + 1) finer

/-- The decimal with the fewest digits that reads back as the positive double `q`; seventeen digits
always suffice. -/
def shortest (q : Rat) : Decimal := shortestFrom q (decimalOrder q) 1 17

/-! ### Layout -/

/-- Where positional notation ends. The decimal point of a number stands after `point` of its
digits; positions from `leastPoint` up to `greatestPoint` are written out with zeros. -/
structure Layout where
  leastPoint : Int
  greatestPoint : Int

/-- Numbers are written without an exponent from a millionth up to, not including, 10 to the 21. -/
def plain : Layout := ⟨-5, 21⟩

/-- The digits of a decimal without its trailing zeros. -/
def Decimal.significant (d : Decimal) : List Char :=
  ((Nat.toDigits 10 d.mantissa).reverse.dropWhile (· == '0')).reverse

/-- The place of the decimal point, counted from before the first digit. -/
def Decimal.point (d : Decimal) : Int := digitCount d.mantissa + d.exponent

def exponentText (e : Int) : String :=
  if e < 0 then "e-" ++ toString e.natAbs else "e+" ++ toString e.natAbs

/-- A positive decimal, positional within the bounds of the layout. -/
def Decimal.write (layout : Layout) (d : Decimal) : String :=
  let digits := d.significant
  let count : Int := digits.length
  let point := d.point
  if layout.leastPoint ≤ point ∧ point ≤ layout.greatestPoint then
    if count ≤ point then
      String.ofList (digits ++ List.replicate (point - count).toNat '0')
    else if 0 < point then
      String.ofList (digits.take point.toNat ++ '.' :: digits.drop point.toNat)
    else
      String.ofList ('0' :: '.' :: List.replicate (-point).toNat '0' ++ digits)
  else
    match digits with
    | [digit] => String.ofList [digit] ++ exponentText (point - 1)
    | _ => String.ofList (digits.take 1 ++ '.' :: digits.drop 1) ++ exponentText (point - 1)

def text (x : Number) : String :=
  if isSmallWhole x.toRat then toString x.toRat.num
  else if overflow ≤ x.toRat then "Infinity"
  else if x.toRat ≤ -overflow then "-Infinity"
  else if x.toRat < 0 then "-" ++ (shortest (-x.toRat)).write plain
  else (shortest x.toRat).write plain

/-! ### Reading -/

/-- Any decimal whose point stands this far from its digits is beyond the doubles. -/
def furthestPoint : Nat := 400

/-- The number nearest to the decimal `mantissa * 10 ^ exponent`. -/
def ofDecimal (d : Decimal) : Number :=
  if d.mantissa = 0 then 0
  else if d.point < -furthestPoint then 0
  else if furthestPoint < d.point then infinity
  else ofRat d.toRat

end ClosingBrace.Number
