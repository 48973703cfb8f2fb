import ProductSegments.Double.Rounding

/-! # Double-precision numbers

  The numbers of rules and products are binary64 values: a signed magnitude on
  the binary64 grid, an infinity of either sign, or the one value that is not
  a number. The two zeros are different values of the same size.

  - `Double.compare?` is the numeric order, in which NaN has no place.
  - `Double.ofRatio` and `Double.ofInt` round to the nearest value.
  - `Double.ofDecimal` is the value nearest to a decimal.
-/

namespace ProductSegments

/-- A finite magnitude, as a number of units of 2^-1074. -/
structure Magnitude where
  /-- The number of units. -/
  units : Nat
  /-- The number of units is on the grid. -/
  representable : Double.Representable units
deriving DecidableEq

/-- A binary64 value. -/
inductive Double where
  /-- Not a number. -/
  | nan
  /-- An infinity, with its sign. -/
  | infinite (negative : Bool)
  /-- A finite value, zeros included, with its sign. -/
  | finite (negative : Bool) (magnitude : Magnitude)
deriving DecidableEq

namespace Double

/-- The zero with the given sign. -/
def zero (negative : Bool) : Double := .finite negative ⟨0, representable_zero⟩

/-- Whether the value is neither infinite nor NaN. -/
def isFinite : Double → Bool
  | .finite _ _ => true
  | _ => false

/-! ### Order -/

/-- An integer with a sign put on it. -/
def signed (negative : Bool) (n : Nat) : Int := if negative then -n else n

/-- The place of a value in the numeric order: its signed number of units, the
    infinities standing at the limit. NaN has no place. -/
def rank? : Double → Option Int
  | .nan => none
  | .infinite negative => some (signed negative limit)
  | .finite negative m => some (signed negative m.units)

/-- The numeric order of two values, or `none` when one of them is NaN. -/
def compare? (x y : Double) : Option Ordering := do
  return compare (← x.rank?) (← y.rank?)

theorem compare?_eq_some_iff {x y : Double} {o : Ordering} :
    x.compare? y = some o ↔ ∃ i j, x.rank? = some i ∧ y.rank? = some j ∧ compare i j = o := by
  cases hx : x.rank? <;> cases hy : y.rank? <;> simp [compare?, hx, hy]

/-! ### Rounding to the nearest value -/

/-- The value nearest to `n / d` units, with the given sign; what rounds to the
    limit or beyond is infinite. -/
def ofRatio (negative : Bool) (n d : Nat) : Double :=
  if h : roundUnits n d < limit then .finite negative ⟨roundUnits n d, representable_roundUnits h⟩
  else .infinite negative

/-- The value nearest to an integer. -/
def ofInt (i : Int) : Double := ofRatio (i < 0) (i.natAbs * 2 ^ unitExponent) 1

/-! ### Reading decimals

  A decimal is taken as the exact ratio that it denotes and rounded once, so there
  is no double rounding whatever the number of digits. Two bounds keep the ratio
  small: at 10^400 every positive number has overflowed, and below 10^-400 every
  number has vanished, which the size of the digits shows without computing the
  power.
-/

/-- A decimal with digits and an exponent above this one has overflowed. -/
def overflowExponent : Int := 400

/-- The value nearest to a decimal, with the given sign; the infinity of that
    sign if the decimal is too large to round to a finite value. -/
def ofDecimal (negative : Bool) (d : Decimal) : Double :=
  -- the digits are below two to the power of one more than their logarithm
  if d.digits = 0 ∨ d.exponent + (d.digits.log2 + 1) < -overflowExponent then zero negative
  else if overflowExponent < d.exponent then .infinite negative
  else ofRatio negative (d.numerator (2 ^ unitExponent)) d.denominator

/-- The value nearest to a numeral. -/
def ofNumeral (n : Numeral) : Double := ofDecimal n.negative n.magnitude

end Double

end ProductSegments
