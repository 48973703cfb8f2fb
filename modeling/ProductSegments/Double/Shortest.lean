import ProductSegments.Double.Basic

/-! # Shortest digits

  The digits that number text shows: the fewest that read back to the same
  value and, among those, the nearest to it. The search goes through the
  decimal grids from coarse to fine. On each grid only the two neighbours of
  the value can be nearest, and whether one of them reads back is decided by
  reading it. Seventeen digits identify every value, and should none of the
  grids hold a candidate, the exact decimal expansion is taken.
-/

namespace ProductSegments

/-- Which of two equally near neighbours is taken. -/
inductive Tie where
  /-- The one of greater magnitude. -/
  | up
  /-- The one with the even last digit. -/
  | even
deriving DecidableEq

namespace Magnitude

/-- The zero magnitude. -/
def zero : Magnitude := ⟨0, Double.representable_zero⟩

/-- Whether a decimal is read as this magnitude. -/
def ReadsBack (m : Magnitude) (d : Decimal) : Prop := Double.ofDecimal false d = .finite false m

instance (m : Magnitude) (d : Decimal) : Decidable (m.ReadsBack d) :=
  inferInstanceAs (Decidable (_ = _))

/-- The magnitude divided by `10 ^ s`, as a numerator. -/
def gridNumerator (m : Magnitude) (s : Int) : Nat := m.units * 10 ^ (-s).toNat

/-- The magnitude divided by `10 ^ s`, as a denominator. -/
def gridDenominator (s : Int) : Nat := 2 ^ Double.unitExponent * 10 ^ s.toNat

/-- The greatest multiple of `10 ^ s` that is not above the magnitude. -/
def gridFloor (m : Magnitude) (s : Int) : Decimal :=
  ⟨m.gridNumerator s / gridDenominator s, s⟩

/-- The neighbour of the magnitude on the grid of `10 ^ s` that reads back; the
    nearer one if both do. -/
def candidate? (tie : Tie) (m : Magnitude) (s : Int) : Option Decimal :=
  let low := m.gridFloor s
  let high : Decimal := ⟨low.digits + 1, s⟩
  if m.ReadsBack low then
    if m.ReadsBack high then
      -- the half way between the two is counted in halves, so nothing is divided
      match compare (2 * m.gridNumerator s) ((2 * low.digits + 1) * gridDenominator s), tie with
      | .lt, _ => some low
      | .gt, _ => some high
      | .eq, .up => some high
      | .eq, .even => some (if low.digits % 2 = 0 then low else high)
    else some low
  else if m.ReadsBack high then some high
  else none

/-- The least power of ten that is above every magnitude of this one's number
    of digits. Below 1 the factor `10 ^ 324` lifts every positive magnitude
    above 1. -/
def decimalExponent (m : Magnitude) : Int :=
  if 2 ^ Double.unitExponent ≤ m.units then
    (Nat.toDigits 10 (m.units / 2 ^ Double.unitExponent)).length
  else (Nat.toDigits 10 (m.units * 10 ^ 324 / 2 ^ Double.unitExponent)).length - 324

/-- The exact decimal expansion. -/
def exactDecimal (m : Magnitude) : Decimal :=
  ⟨m.units * 5 ^ Double.unitExponent, -Double.unitExponent⟩

/-- The shortest decimal that reads back, without trailing zeros. -/
def shortest (tie : Tie) (m : Magnitude) : Decimal :=
  if m.units = 0 then ⟨0, 0⟩
  else
    let found? := (List.range 17).findSome? fun (n : Nat) =>
      m.candidate? tie (m.decimalExponent - 1 - n)
    (found?.getD m.exactDecimal).normalize

end Magnitude

/-! ### Display

  For people, a number is written with its shortest digits, always positionally
  and without a point when it has no fraction: `5000`, `4.5`, `-0`,
  `1000000000000000000000`. Of two equally near shortest decimals the greater is
  shown.
-/

namespace Double

/-- The text of a number for people. -/
def display : Double → List Char
  | .nan => ['N', 'a', 'N']
  | .infinite negative => Decimal.withSign negative ['i', 'n', 'f']
  | .finite negative m => Decimal.withSign negative (m.shortest .up).positional

end Double

end ProductSegments
