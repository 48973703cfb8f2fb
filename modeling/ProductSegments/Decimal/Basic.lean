/-! # Decimals

  A decimal is a natural number of digits moved by a power of ten. It is what
  number text denotes before it is rounded, and what the digits of a
  double-precision number are selected from.

  - `Decimal.normalize` takes off the trailing zeros.
  - `Decimal.positional` are the digits as text, with a point where it falls and
    zeros to fill up to it.
-/

/-! ### Powers

  Powers of natural numbers are the core ones. A library that is imported besides
  may offer others that are equal to them and are found first, so these are put in
  front: a definition then means the same wherever it is read.
-/

attribute [instance (high)] instPowNat

attribute [default_instance (high + 1)] instPowNat

namespace ProductSegments

/-- The number `digits * 10 ^ exponent`. -/
structure Decimal where
  /-- The digits, read as a natural number. -/
  digits : Nat
  /-- The power of ten that the digits are multiplied by. -/
  exponent : Int
deriving DecidableEq

/-- A decimal with a sign; the two zeros are different. -/
structure Numeral where
  /-- Whether a minus sign stands in front. -/
  negative : Bool
  /-- The magnitude. -/
  magnitude : Decimal
deriving DecidableEq

namespace Decimal

/-- The numerator of the decimal, counted in `unit`ths. -/
def numerator (d : Decimal) (unit : Nat) : Nat := d.digits * 10 ^ d.exponent.toNat * unit

/-- The denominator of the decimal. -/
def denominator (d : Decimal) : Nat := 10 ^ (-d.exponent).toNat

theorem denominator_pos (d : Decimal) : 0 < d.denominator := Nat.pow_pos (by decide)

/-- Takes off up to `fuel` trailing zeros, moving them into the exponent. -/
def dropZeros : Nat → Decimal → Decimal
  | 0, d => d
  | fuel + 1, d =>
    if d.digits % 10 = 0 then dropZeros fuel ⟨d.digits / 10, d.exponent + 1⟩ else d

/-- The same number without trailing zeros. Zero is left alone. -/
def normalize (d : Decimal) : Decimal :=
  if d.digits = 0 then d else dropZeros d.digits.log2 d

/-! ### Layout -/

/-- A row of zeros. -/
def zeros (n : Nat) : List Char := List.replicate n '0'

/-- A number with zeros in front to make up a width. -/
def padded (width n : Nat) : List Char :=
  let ds := Nat.toDigits 10 n
  zeros (width - ds.length) ++ ds

/-- Puts a minus sign in front of the text of a negative number. -/
def withSign (negative : Bool) (text : List Char) : List Char :=
  if negative then '-' :: text else text

/-- Puts a point behind the first `n` digits, one zero at least standing in
    front of it. -/
def pointAfter (n : Nat) (ds : List Char) : List Char :=
  if n = 0 then '0' :: '.' :: ds else ds.take n ++ '.' :: ds.drop n

/-- The digits of the decimal with the point where it falls. A decimal without
    a fraction is written without a point. -/
def positional (d : Decimal) : List Char :=
  let ds := Nat.toDigits 10 d.digits
  match d.exponent with
  | .ofNat n => ds ++ zeros n
  | .negSucc n => pointAfter (ds.length - (n + 1)) (zeros (n + 1 - ds.length) ++ ds)

/-- The number of digits in front of the point; zero or negative if the
    fraction starts with zeros. -/
def pointPosition (d : Decimal) : Int := (Nat.toDigits 10 d.digits).length + d.exponent

/-- An integer with a sign, plus included. -/
def signedText (i : Int) : List Char :=
  (if i < 0 then '-' else '+') :: Nat.toDigits 10 i.natAbs

end Decimal

end ProductSegments
