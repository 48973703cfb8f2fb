/-! # Text

  What the readers of text share: blanks, digits and the decoding of bytes.

  A character is *blank* when it has the Unicode property White_Space, which
  25 code points have and which has not changed since Unicode 6.3. Control
  characters below the space other than U+0009 to U+000D are not blank, nor
  are the zero-width space and the byte order mark.

  Bytes that are meant as UTF-8 text are decoded into *symbols*. A symbol is a
  character, or `none` for a byte that belongs to no character: a stray
  continuation byte, a sequence cut short or longer than need be, half of a
  surrogate pair. Where such a byte may stand is for the reader of the symbols
  to say.

  - `Text.isBlank` decides whether a character is blank.
  - `Text.trim` takes the blanks off both ends of a text and keeps those inside.
  - `Text.valueIn?` is the number that a row of digits of either case stands for in a
    base up to sixteen; the empty row stands for none.
  - `Text.decode` are the symbols of bytes.
-/

namespace ProductSegments

namespace Text

/-! ### Blanks -/

/-- The code points with the property White_Space, as closed ranges in
    ascending order. -/
def blankRanges : List (Nat × Nat) :=
  [(0x09, 0x0D), (0x20, 0x20), (0x85, 0x85), (0xA0, 0xA0), (0x1680, 0x1680),
   (0x2000, 0x200A), (0x2028, 0x2029), (0x202F, 0x202F), (0x205F, 0x205F), (0x3000, 0x3000)]

/-- Whether the character is white space. -/
def isBlank (c : Char) : Bool :=
  blankRanges.any fun r => r.1 ≤ c.toNat && c.toNat ≤ r.2

/-! ### Trimming -/

/-- The characters from the first that is not blank on. -/
def trimLeft (cs : List Char) : List Char := cs.dropWhile isBlank

/-- The characters up to the last that is not blank. -/
def trimRight (cs : List Char) : List Char := (cs.reverse.dropWhile isBlank).reverse

/-- The text without the blanks at its two ends. -/
def trim (cs : List Char) : List Char := trimRight (trimLeft cs)

/-- The string without the blanks at its two ends. -/
def trimmed (s : String) : String := String.ofList (trim s.toList)

@[simp] theorem toList_trimmed (s : String) : (trimmed s).toList = trim s.toList := by
  simp [trimmed]

/-! ### Digits -/

/-- The value of a hexadecimal digit of either case. -/
def digit? (c : Char) : Option Nat :=
  if c.isDigit then some (c.toNat - '0'.toNat)
  else if 'a' ≤ c ∧ c ≤ 'f' then some (c.toNat - 'a'.toNat + 10)
  else if 'A' ≤ c ∧ c ≤ 'F' then some (c.toNat - 'A'.toNat + 10)
  else none

/-- The value of a digit that a base has. -/
def digitIn? (base : Nat) (c : Char) : Option Nat := (digit? c).filter (· < base)

/-- Whether a character is a digit of a base. -/
def isDigitIn (base : Nat) (c : Char) : Bool := (digitIn? base c).isSome

/-- The value of a row of digits of a base, the first digit counting most. -/
def valueIn? (base : Nat) (ds : List Char) : Option Nat :=
  if ds = [] then none
  else ds.foldlM (fun n d => (digitIn? base d).map (base * n + ·)) 0

/-! ### Symbols -/

/-- A character, or `none` for a byte that belongs to no character. -/
abbrev Symbol := Option Char

/-- The symbols of a text, which has characters only. -/
def symbols (s : String) : List Symbol := s.toList.map some

/-- The symbols of the bytes from a position on, at most `fuel` of them. -/
def symbolsFrom (bytes : ByteArray) : Nat → Nat → List Symbol
  | 0, _ => []
  | fuel + 1, i =>
    if i < bytes.size then
      match bytes.utf8DecodeChar? i with
      | some c => some c :: symbolsFrom bytes fuel (i + c.utf8Size)
      | none => none :: symbolsFrom bytes fuel (i + 1)
    else []

/-- The symbols of bytes. Every symbol takes up a byte at least. -/
def decode (bytes : ByteArray) : List Symbol := symbolsFrom bytes bytes.size 0

end Text

end ProductSegments
