import ProductSegments.Double.Basic

/-! # Reading digits in two steps

  Catalogs are read without exact decimal arithmetic. The leading digits that
  fit into 64 bits are rounded to a double-precision number, and this number is
  multiplied or divided by the power of ten that is left, itself rounded. Each
  step rounds to the nearest value. With at most 15 digits and a power of ten
  up to 10^22 only the last step is inexact and the nearest value comes out;
  other numbers may come out next to it.

  - `Double.leadingDigits` drops the digits that do not fit.
  - `Double.ofScaled` multiplies or divides by the power of ten.
  - `Double.ofDigits` reads a number with a point and an exponent.
-/

namespace ProductSegments

namespace Double

/-! ### Leading digits -/

/-- Takes up to `fuel` digits off the end of a number until the rest fits into
    64 bits; the second part is the number of digits taken off. -/
def dropDigits : Nat → Nat → Nat × Nat
  | 0, n => (n, 0)
  | fuel + 1, n =>
    if n < 2 ^ 64 then (n, 0)
    else
      let (m, dropped) := dropDigits fuel (n / 10)
      (m, dropped + 1)

/-- The leading digits of a number that fit into 64 bits, and how many digits
    there are behind them. -/
def leadingDigits (n : Nat) : Nat × Nat := dropDigits n.log2 n

/-! ### Powers of ten -/

/-- The greatest power of ten that is not above all finite values. -/
def maxPower : Nat := 308

/-- The number of units nearest to a natural number. -/
def naturalUnits (n : Nat) : Nat := roundUnits (n * 2 ^ unitExponent) 1

/-- The number of units nearest to a number of units divided by another. -/
def quotientUnits (a b : Nat) : Nat := roundUnits (a * 2 ^ unitExponent) b

/-- A significand multiplied or divided by a power of ten, with the given sign.
    Beyond the greatest power of ten a product is infinite, unless it is zero,
    and a quotient takes one more division. -/
def ofScaled (negative : Bool) (significand : Nat) : Int → Double
  | .ofNat k =>
    if significand = 0 then zero negative
    else if maxPower < k then .infinite negative
    else
      ofRatio negative (naturalUnits significand * naturalUnits (10 ^ k)) (2 ^ unitExponent)
  | .negSucc k =>
    let divided (units power : Nat) : Double :=
      ofRatio negative (units * 2 ^ unitExponent) (naturalUnits (10 ^ power))
    -- here `k` is one less than the power
    if k < maxPower then divided (naturalUnits significand) (k + 1)
    else if k < 2 * maxPower then
      divided (quotientUnits (naturalUnits significand) (naturalUnits (10 ^ maxPower)))
        (k + 1 - maxPower)
    else zero negative

/-! ### Digits -/

/-- The value of digits of which `places` stand behind the point, times a power
    of ten. Once digits in front of the point have been dropped, digits behind
    it take the place of these as far as they fit. -/
def ofDigits (negative : Bool) (digits places : Nat) (exponent : Int) : Double :=
  let (whole, dropped) := leadingDigits (digits / 10 ^ places)
  let (significand, dropped') := leadingDigits (whole * 10 ^ places + digits % 10 ^ places)
  ofScaled negative significand (dropped + dropped' - places + exponent)

end Double

end ProductSegments
