import ProductSegments.Decimal.Basic
import ProductSegments.Instant.Basic
import ProductSegments.Text.Basic

/-! # RFC 3339 text

  Instants as text, `2024-05-01T10:00:00.500Z`.

  Writing uses one form: UTC with `Z`, the fraction in 0, 3, 6 or 9 digits,
  the fewest that keep it, and a sign only on years outside 0 to 9999.

  Reading is lenient in what surrounds the numbers. Blanks may stand before
  every number, before every `-` and `:` and around the zone; month to second
  may have one digit; a year without a sign has at most four; the date ends
  with `T`, `t` or a space; the zone is `Z`, `UTC` in any case, or a sign, two
  digits of hours and two of minutes with colons or blanks between them.
  Digits of the fraction after the ninth are dropped.
-/

namespace ProductSegments

namespace Instant

open Decimal (padded)

/-! ### Writing -/

/-- A year in four digits, with a sign if it has more or is negative. -/
def yearText (year : Int) : List Char :=
  if year < 0 then '-' :: padded 4 year.natAbs
  else if 9999 < year then '+' :: padded 4 year.natAbs
  else padded 4 year.natAbs

/-- The fraction of a second with its point, in as many groups of three digits
    as keep it. -/
def fractionText (nanosecond : Nat) : List Char :=
  if nanosecond = 0 then []
  else if nanosecond % 1000000 = 0 then '.' :: padded 3 (nanosecond / 1000000)
  else if nanosecond % 1000 = 0 then '.' :: padded 6 (nanosecond / 1000)
  else '.' :: padded 9 nanosecond

/-- The text of an instant. -/
def text (i : Instant) : List Char :=
  yearText i.date.year ++ '-' :: padded 2 i.date.month ++ '-' :: padded 2 i.date.day ++
  'T' :: padded 2 (i.minute / 60) ++ ':' :: padded 2 (i.minute % 60) ++
  ':' :: padded 2 i.second ++ fractionText i.nanosecond ++ ['Z']

/-! ### Reading -/

/-- Reads a number of one to `width` digits, blanks before it allowed, and
    returns what follows. -/
def readNumber (width : Nat) (cs : List Char) : Option (Nat × List Char) :=
  let cs := Text.trimLeft cs
  let ds := (cs.takeWhile Char.isDigit).take width
  if ds = [] then none else some (Nat.ofDigitChars 10 ds 0, cs.drop ds.length)

/-- Reads a year, which may have any number of digits behind a sign. -/
def readYear (cs : List Char) : Option (Int × List Char) :=
  let digitsAfterSign (cs : List Char) : Option (Nat × List Char) :=
    let ds := cs.takeWhile Char.isDigit
    if ds = [] then none else some (Nat.ofDigitChars 10 ds 0, cs.drop ds.length)
  match Text.trimLeft cs with
  | '-' :: cs => (digitsAfterSign cs).map fun (n, cs) => (-(n : Int), cs)
  | '+' :: cs => (digitsAfterSign cs).map fun (n, cs) => ((n : Int), cs)
  | cs => (readNumber 4 cs).map fun (n, cs) => ((n : Int), cs)

/-- Passes a given character, blanks before it allowed. -/
def passMark (mark : Char) (cs : List Char) : Option (List Char) :=
  match Text.trimLeft cs with
  | c :: cs => if c = mark then some cs else none
  | [] => none

/-- Reads a date and what ends it. -/
def readDate (cs : List Char) : Option (Date × List Char) := do
  let (year, cs) ← readYear cs
  let (month, cs) ← readNumber 2 (← passMark '-' cs)
  let (day, cs) ← readNumber 2 (← passMark '-' cs)
  let date ← Date.ofNumbers? year month day
  match cs with
  | c :: cs => if c = 'T' ∨ c = 't' ∨ c = ' ' then some (date, cs) else none
  | [] => none

/-- The first nine digits of a fraction as nanoseconds. -/
def nanoseconds (ds : List Char) : Nat :=
  let kept := ds.take 9
  Nat.ofDigitChars 10 kept 0 * 10 ^ (9 - kept.length)

/-- Reads the fraction of a second, which may be absent. -/
def readFraction : List Char → Option (Nat × List Char)
  | '.' :: cs =>
    let ds := cs.takeWhile Char.isDigit
    if ds = [] then none else some (nanoseconds ds, cs.dropWhile Char.isDigit)
  | cs => some (0, cs)

/-- A number below a bound. -/
def below? (bound n : Nat) : Option (Fin bound) := if h : n < bound then some ⟨n, h⟩ else none

/-- Reads two digits. -/
def readPair : List Char → Option (Nat × List Char)
  | a :: b :: cs =>
    if a.isDigit ∧ b.isDigit then some (Nat.ofDigitChars 10 [a, b] 0, cs) else none
  | _ => none

/-- Reads an offset from UTC in minutes, behind its sign. -/
def readOffset (cs : List Char) : Option (Nat × List Char) := do
  let (hours, cs) ← readPair cs
  let (minutes, cs) ← readPair (cs.dropWhile fun c => c = ':' ∨ Text.isBlank c)
  if hours < 24 ∧ minutes < 60 then some (60 * hours + minutes, cs) else none

/-- Reads the zone: the minutes by which its clocks are ahead of UTC. -/
def readZone (cs : List Char) : Option (Int × List Char) :=
  match Text.trimLeft cs with
  | 'Z' :: cs | 'z' :: cs => some (0, cs)
  | '+' :: cs => (readOffset cs).map fun (n, cs) => ((n : Int), cs)
  -- the typographic minus sign counts here and not in front of a year
  | '-' :: cs | '\u2212' :: cs => (readOffset cs).map fun (n, cs) => (-(n : Int), cs)
  | u :: t :: c :: cs =>
    if u.toUpper = 'U' ∧ t.toUpper = 'T' ∧ c.toUpper = 'C' then some (0, cs) else none
  | _ => none

/-- Reads the text of an instant. -/
def read? (cs : List Char) : Option Instant := do
  let (date, cs) ← readDate cs
  let (hour, cs) ← readNumber 2 cs
  let (minute, cs) ← readNumber 2 (← passMark ':' cs)
  let (second, cs) ← readNumber 2 (← passMark ':' cs)
  let (nanosecond, cs) ← readFraction cs
  let (offset, cs) ← readZone cs
  if 24 ≤ hour ∨ 60 ≤ minute ∨ Text.trimLeft cs ≠ [] then none
  else
    let minute ← below? _ (60 * hour + minute)
    ofLocal? date minute (← below? _ second) (← below? _ nanosecond) offset

end Instant

end ProductSegments
