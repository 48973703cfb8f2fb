import ProductSegments.Decimal.Basic
import ProductSegments.Decimal.Numeral
import ProductSegments.Double.OfDigits
import ProductSegments.Double.Shortest
import ProductSegments.Json.Basic

/-! # JSON numbers

  The text of numbers, and the double-precision numbers that they stand for.

  - `Json.number?` reads a word that is a number.
  - `Json.Real.text` writes a number with a fraction or an exponent.
  - `Json.ofDouble` selects the digits that are written for a double, and
    `Json.toDouble?` is the double that is read from digits.

  A double is written positionally, with at least one digit behind the point,
  when it is zero or its size lies from 1e-5 up to below 1e16; otherwise it is
  written with a signed exponent.
-/

namespace ProductSegments

namespace Json

/-! ### Reading -/

/-- Reads the digits in front of the point: a lone zero, or digits that do not
    start with one. -/
def readWhole (cs : List Char) : Option (List Char × List Char) :=
  match Numeral.splitDigits cs with
  | ([], _) => none
  | ('0' :: ds, rest) => if ds = [] then some (['0'], rest) else none
  | (ds, rest) => some (ds, rest)

/-- Reads a point and the digits behind it, of which there are none without a
    point. -/
def readFraction : List Char → Option (List Char × List Char)
  | '.' :: cs =>
    match Numeral.splitDigits cs with
    | ([], _) => none
    | (ds, rest) => some (ds, rest)
  | cs => some ([], cs)

/-- Reads an exponent, if there is one. -/
def readExponent : List Char → Option (Option Int × List Char)
  | [] => some (none, [])
  | c :: cs =>
    if c = 'e' ∨ c = 'E' then
      let (negative, cs) := Numeral.splitSign cs
      match Numeral.splitDigits cs with
      | ([], _) => none
      | (ds, rest) =>
        let n : Int := Numeral.digitsValue ds
        some (some (if negative then -n else n), rest)
    else some (none, c :: cs)

/-- The number with the given parts: real if it has a fraction or an exponent. -/
def ofParts (negative : Bool) (whole fraction : List Char) (exponent? : Option Int) : Json :=
  if h : exponent? = none → 0 < fraction.length then
    .real ⟨negative, Numeral.digitsValue (whole ++ fraction), fraction.length, exponent?, h⟩
  else .integer negative (Numeral.digitsValue whole)

/-- The number that a whole word is. There is no plus sign in front. -/
def number? (cs : List Char) : Option Json := do
  let negative := cs.head? == some '-'
  let (whole, cs) ← readWhole (if negative then cs.drop 1 else cs)
  let (fraction, cs) ← readFraction cs
  let (exponent?, cs) ← readExponent cs
  if cs = [] then some (ofParts negative whole fraction exponent?) else none

/-! ### Writing -/

/-- The text of a real number. -/
def Real.text (n : Real) : List Char :=
  let mantissa := Decimal.positional ⟨n.digits, -n.places⟩
  Decimal.withSign n.negative
    (mantissa ++ n.exponent?.elim [] fun exponent => 'e' :: Decimal.signedText exponent)

/-! ### Doubles -/

/-- The real number that is written for a decimal. -/
def Real.ofDecimal (negative : Bool) (d : Decimal) : Real :=
  if d.digits = 0 ∨ (-5 < d.pointPosition ∧ d.pointPosition ≤ 16) then
    match d.exponent with
    | .ofNat n => ⟨negative, d.digits * 10 ^ (n + 1), 1, none, fun _ => Nat.one_pos⟩
    | .negSucc n => ⟨negative, d.digits, n + 1, none, fun _ => n.succ_pos⟩
  else
    ⟨negative, d.digits, (Nat.toDigits 10 d.digits).length - 1, some (d.pointPosition - 1), nofun⟩

/-- The value of a double-precision number: its shortest digits, the even one
    of two equally near. There is no infinite number and no NaN in JSON. -/
def ofDouble : Double → Json
  | .finite negative m => .real (.ofDecimal negative (m.shortest .even))
  | _ => .null

/-- The double-precision number that a number is read as, if it is finite. -/
def toDouble? : Json → Option Double
  | .integer negative n => some (Double.ofDigits negative n 0 0) |>.filter Double.isFinite
  | .real n =>
    some (Double.ofDigits n.negative n.digits n.places (n.exponent?.getD 0))
      |>.filter Double.isFinite
  | _ => none

end Json

end ProductSegments
