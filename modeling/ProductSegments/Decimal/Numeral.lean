import ProductSegments.Decimal.Basic

/-! # Plain decimal numerals

  The number literals of rules. A numeral is an optional sign, digits with an
  optional point among or beside them, and an optional exponent:

  `[+-]?(D+(.D*)?|.D+)([eE][+-]?D+)?`

  where `D` is an ASCII digit. Hexadecimal forms, digit separators and the
  names of infinity and NaN are no numerals.
-/

namespace ProductSegments

namespace Numeral

/-- The value of a row of decimal digits. -/
def digitsValue (ds : List Char) : Nat := Nat.ofDigitChars 10 ds 0

/-- Splits off a leading sign; the first part says whether it is a minus. -/
def splitSign : List Char → Bool × List Char
  | '-' :: cs => (true, cs)
  | '+' :: cs => (false, cs)
  | cs => (false, cs)

/-- Splits off the longest row of digits at the front. -/
def splitDigits (cs : List Char) : List Char × List Char :=
  (cs.takeWhile Char.isDigit, cs.dropWhile Char.isDigit)

/-- Reads the digits and the point at the front, with at least one digit on
    either side of the point, and returns what follows. -/
def readMantissa (cs : List Char) : Option (Decimal × List Char) :=
  match splitDigits cs with
  | ([], '.' :: rest) =>
    match splitDigits rest with
    | ([], _) => none
    | (fraction, rest) => some (⟨digitsValue fraction, -fraction.length⟩, rest)
  | ([], _) => none
  | (whole, '.' :: rest) =>
    let (fraction, rest) := splitDigits rest
    some (⟨digitsValue (whole ++ fraction), -fraction.length⟩, rest)
  | (whole, rest) => some (⟨digitsValue whole, 0⟩, rest)

/-- Reads a whole text as digits. -/
def readDigits (cs : List Char) : Option Nat :=
  if cs ≠ [] ∧ cs.all Char.isDigit then some (digitsValue cs) else none

/-- Reads a whole text as an exponent part, which may be absent. -/
def readExponent : List Char → Option Int
  | [] => some 0
  | c :: cs =>
    if c = 'e' ∨ c = 'E' then
      let (negative, ds) := splitSign cs
      (readDigits ds).map fun n => if negative then -(n : Int) else n
    else none

/-- Reads a whole text as a numeral. -/
def read? (cs : List Char) : Option Numeral := do
  let (negative, cs) := splitSign cs
  let (mantissa, rest) ← readMantissa cs
  let shift ← readExponent rest
  return ⟨negative, ⟨mantissa.digits, mantissa.exponent + shift⟩⟩

end Numeral

end ProductSegments
