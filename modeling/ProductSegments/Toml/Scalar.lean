import ProductSegments.Decimal.Numeral
import ProductSegments.Double.Basic
import ProductSegments.Instant.Basic
import ProductSegments.Text.Basic
import ProductSegments.Toml.Table

/-! # TOML scalars

  Which words are numbers, booleans or dates. Booleans and dates are wrong
  unless they stand for a value. Of a number only the *form* is checked where
  it is written; its value is checked where it is read, and some forms have
  none: an integer of more than 128 bits, a prefix without digits behind it,
  letters among decimal digits, a float that rounds to infinity.
-/

namespace ProductSegments

namespace Toml

/-! ### Underscores -/

/-- Whether every underscore stands between two digits. -/
def areBetweenDigits (isDigit : Char → Bool) : List Char → Bool
  | [] => true
  | '_' :: _ => false
  | [_] => true
  | c :: '_' :: d :: cs => isDigit c && isDigit d && areBetweenDigits isDigit (d :: cs)
  | _ :: c :: cs => areBetweenDigits isDigit (c :: cs)

/-- Whether every underscore stands between two digits, where the first one may
    also stand between a sign and a digit. -/
def isGrouped (isDigit : Char → Bool) : List Char → Bool
  | '+' :: '_' :: c :: cs => isDigit c && areBetweenDigits isDigit (c :: cs)
  | '-' :: '_' :: c :: cs => isDigit c && areBetweenDigits isDigit (c :: cs)
  | cs => areBetweenDigits isDigit cs

/-- The text without underscores. -/
def ungrouped (cs : List Char) : List Char := cs.filter (· ≠ '_')

/-! ### Integers -/

/-- The base that a prefix announces, and what follows the prefix. -/
def splitBase? : List Char → Option (Nat × List Char)
  | '0' :: 'x' :: cs => some (16, cs)
  | '0' :: 'o' :: cs => some (8, cs)
  | '0' :: 'b' :: cs => some (2, cs)
  | _ => none

/-- Whether what follows a prefix has the form of an integer of the base. There
    need not be any digits. -/
def isBasedForm (base : Nat) (cs : List Char) : Bool :=
  -- underscores are checked before it is known which digits the base has
  cs.all (fun c => Text.isDigitIn base c || c == '_') && isGrouped (Text.isDigitIn 16) cs

/-- Whether a word has the form of a decimal integer: a sign if need be, and a
    lone zero or digits that do not start with one. Behind an underscore any
    character may follow that does not make the word a float. -/
def isIntegerForm (cs : List Char) : Bool :=
  let ds := (Numeral.splitSign cs).2
  match Numeral.splitDigits ds with
  | ([], []) => false
  | (['0'], []) => true
  | ('0' :: _, _) => false
  | (_, []) => true
  | (_, c :: rest) =>
    c == '_' && !rest.any (fun c => c == '.' || c == 'e' || c == 'E') &&
      isGrouped (Text.isDigitIn 16) cs

/-- The greatest magnitude of an integer with the given sign. -/
def maxInteger (negative : Bool) : Nat := if negative then 2 ^ 127 else 2 ^ 128 - 1

/-- Whether digits of a base stand for an integer within bounds. -/
def isIntegerValue (base : Nat) (negative : Bool) (ds : List Char) : Bool :=
  (Text.valueIn? base (ungrouped ds)).any (· ≤ maxInteger negative)

/-! ### Floats -/

/-- Whether digits are a lone zero or do not start with one. -/
def isWhole (cs : List Char) : Bool :=
  cs == ['0'] || (cs != [] && cs.all Char.isDigit && cs.head? != some '0')

/-- Whether a text is a row of digits, at least one. -/
def areDigits (cs : List Char) : Bool := cs != [] && cs.all Char.isDigit

/-- Whether a word without underscores has the form of a float, with a point or
    an exponent or both. -/
def isPlainFloat (cs : List Char) : Bool :=
  let ds := (Numeral.splitSign cs).2
  let isMark (c : Char) : Bool := c == 'e' || c == 'E'
  let mantissa := ds.takeWhile (!isMark ·)
  let fractionOk := match mantissa.dropWhile (· ≠ '.') with
    | [] => true
    | _ :: fraction => areDigits fraction
  let exponentOk := match ds.dropWhile (!isMark ·) with
    | [] => true
    | _ :: exponent => areDigits (Numeral.splitSign exponent).2
  ds.any (fun c => c == '.' || isMark c) && isWhole (mantissa.takeWhile (· ≠ '.')) &&
    fractionOk && exponentOk

/-- Whether a word has the form of a float that is written out. -/
def isFloatForm (cs : List Char) : Bool :=
  isGrouped Char.isDigit cs && isPlainFloat (ungrouped cs)

/-- Whether a word in the form of a float is finite when rounded. -/
def isFloatValue (cs : List Char) : Bool :=
  ((Numeral.read? (ungrouped cs)).map Double.ofNumeral).any Double.isFinite

/-- Whether a word names an infinity or what is not a number. -/
def isNamedFloat (cs : List Char) : Bool :=
  let name := (Numeral.splitSign cs).2
  name == ['i', 'n', 'f'] || name == ['n', 'a', 'n']

/-! ### Numbers -/

/-- The value of a word in the form of a number, or `none` if it has not the
    form of one. -/
def number? (cs : List Char) : Option Toml :=
  let valued (isValue : Bool) : Toml := if isValue then .scalar else .valueless
  match splitBase? cs with
  | some (base, ds) =>
    if isBasedForm base ds then some (valued (isIntegerValue base false ds)) else none
  | none =>
    if isIntegerForm cs then
      let (negative, ds) := Numeral.splitSign cs
      some (valued (isIntegerValue 10 negative ds))
    else if isFloatForm cs then some (valued (isFloatValue cs))
    else if isNamedFloat cs then some .scalar
    else none

/-! ### Dates and times -/

/-- Reads a number of a fixed width. -/
def readFixed (width : Nat) (cs : List Char) : Option (Nat × List Char) :=
  let ds := cs.take width
  if ds.length = width ∧ ds.all Char.isDigit then some (Nat.ofDigitChars 10 ds 0, cs.drop width)
  else none

/-- Passes a given character. -/
def pass (c : Char) : List Char → Option (List Char)
  | d :: cs => if d = c then some cs else none
  | [] => none

/-- Passes a date. -/
def passDate (cs : List Char) : Option (List Char) := do
  let (year, cs) ← readFixed 4 cs
  let (month, cs) ← readFixed 2 (← pass '-' cs)
  let (day, cs) ← readFixed 2 (← pass '-' cs)
  if IsDate year month day then some cs else none

/-- Passes a fraction of a second, which may be absent. -/
def passFraction : List Char → Option (List Char)
  | '.' :: c :: cs => if c.isDigit then some (cs.dropWhile Char.isDigit) else none
  | ['.'] => none
  | cs => some cs

/-- Passes a time of day; the seconds may be absent. -/
def passTime (cs : List Char) : Option (List Char) := do
  let (hour, cs) ← readFixed 2 cs
  let (minute, cs) ← readFixed 2 (← pass ':' cs)
  if 24 ≤ hour ∨ 60 ≤ minute then none
  else match cs with
    | ':' :: cs =>
      let (second, cs) ← readFixed 2 cs
      -- the sixtieth is a leap second
      if 60 < second then none else passFraction cs
    | cs => some cs

/-- Passes an offset from UTC, which may be absent. -/
def passOffset : List Char → Option (List Char)
  | [] => some []
  | 'Z' :: cs | 'z' :: cs => some cs
  | c :: cs =>
    if c = '+' ∨ c = '-' then do
      let (hour, cs) ← readFixed 2 cs
      let (minute, cs) ← readFixed 2 (← pass ':' cs)
      if 24 ≤ hour ∨ 60 ≤ minute then none else some cs
    else none

/-- Whether a word is a date. -/
def isDate (cs : List Char) : Bool := passDate cs == some []

/-- Whether a word is a date, a time of day, or a date with a time of day. -/
def isDateTime (cs : List Char) : Bool :=
  passTime cs == some [] ||
  match passDate cs with
  | some [] => true
  | some (c :: cs) => (c == 'T' || c == 't' || c == ' ') && (passTime cs >>= passOffset) == some []
  | none => false

/-! ### Words -/

/-- The value of a word that is not a string: a boolean, a date or a number. -/
def scalar? (cs : List Char) : Option Toml :=
  if cs == ['t', 'r', 'u', 'e'] || cs == ['f', 'a', 'l', 's', 'e'] || isDateTime cs then
    some .scalar
  else number? cs

end Toml

end ProductSegments
