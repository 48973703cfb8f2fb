import ProductSegments.Json.Number
import ProductSegments.Text.Basic

/-! # Reading JSON text

  Strict JSON: no comments, no trailing commas, no control characters inside
  strings, nothing but white space around the value, and white space is space,
  tab, line feed and carriage return only. Bytes that belong to no character
  may stand inside strings only.

  The readers of values, items and members call one another. They count down
  from the length of the text, which none of them can outrun because every
  call takes off at least one character.
-/

namespace ProductSegments

namespace Json

/-- The symbols that may stand between the parts of JSON text. -/
def isSpace : Text.Symbol → Bool
  | some c => c == ' ' || c == '\t' || c == '\n' || c == '\r'
  | none => false

/-- The text behind the white space at the front. -/
def skipSpace (cs : List Text.Symbol) : List Text.Symbol := cs.dropWhile isSpace

/-! ### Strings -/

/-- A piece of a string. -/
inductive Piece where
  /-- A character. -/
  | char (c : Char)
  /-- A 16-bit unit that was escaped by its hexadecimal digits. -/
  | unit (u : Nat)
  /-- A byte that belongs to no character. -/
  | stray
deriving DecidableEq

/-- The character that a backslash and the given letter stand for. -/
def unescape? : Char → Option Char
  | '"' => some '"'
  | '\\' => some '\\'
  | '/' => some '/'
  | 'b' => some '\x08'
  | 'f' => some '\x0c'
  | 'n' => some '\n'
  | 'r' => some '\r'
  | 't' => some '\t'
  | _ => none

/-- Reads the pieces of a string up to its closing quote. -/
def readPieces : List Text.Symbol → Option (List Piece × List Text.Symbol)
  | [] => none
  | some '"' :: cs => some ([], cs)
  | some '\\' :: some 'u' :: some a :: some b :: some c :: some d :: cs => do
    let u ← Text.valueIn? 16 [a, b, c, d]
    let (ps, rest) ← readPieces cs
    return (.unit u :: ps, rest)
  | some '\\' :: some e :: cs => do
    let c ← unescape? e
    let (ps, rest) ← readPieces cs
    return (.char c :: ps, rest)
  | some c :: cs =>
    -- control characters have to be escaped, and a last backslash escapes nothing
    if c.toNat < 0x20 ∨ c = '\\' then none
    else (readPieces cs).map fun (ps, rest) => (.char c :: ps, rest)
  | none :: cs => (readPieces cs).map fun (ps, rest) => (.stray :: ps, rest)

/-- Whether a unit is the first half of a surrogate pair. -/
def isHighSurrogate (u : Nat) : Bool := 0xD800 ≤ u && u < 0xDC00

/-- Whether a unit is the second half of a surrogate pair. -/
def isLowSurrogate (u : Nat) : Bool := 0xDC00 ≤ u && u < 0xE000

/-- The text that pieces denote, if there are no stray bytes and every half of
    a surrogate pair stands with its other half. -/
def piecesText? : List Piece → Option (List Char)
  | [] => some []
  | .stray :: _ => none
  | .char c :: ps => (piecesText? ps).map (c :: ·)
  | .unit u :: ps =>
    if isHighSurrogate u then
      match ps with
      | .unit l :: ps =>
        if isLowSurrogate l then
          -- the two halves hold ten bits each of a code point above U+FFFF
          (piecesText? ps).map (Char.ofNat (0x10000 + (u - 0xD800) * 0x400 + (l - 0xDC00)) :: ·)
        else none
      | _ => none
    else if isLowSurrogate u then none
    else (piecesText? ps).map (Char.ofNat u :: ·)

/-- Reads a string behind its opening quote. -/
def readString (cs : List Text.Symbol) : Option (Option String × List Text.Symbol) :=
  (readPieces cs).map fun (ps, rest) => ((piecesText? ps).map String.ofList, rest)

/-! ### Numbers -/

/-- The symbols that numbers are written with. -/
def isNumberSymbol : Text.Symbol → Bool
  | some c => c.isDigit || c == '-' || c == '+' || c == '.' || c == 'e' || c == 'E'
  | none => false

/-- Reads a number. Nothing that may stand behind a number is made of the same
    symbols, so the longest row of them has to be the number. -/
def readNumber (cs : List Text.Symbol) : Option (Json × List Text.Symbol) :=
  (number? ((cs.takeWhile isNumberSymbol).filterMap id)).map (·, cs.dropWhile isNumberSymbol)

/-! ### Values -/

mutual

/-- Reads a value and returns what follows. -/
def readValue : Nat → List Text.Symbol → Option (Json × List Text.Symbol)
  | 0, _ => none
  | fuel + 1, cs =>
    match skipSpace cs with
    | some 'n' :: some 'u' :: some 'l' :: some 'l' :: cs => some (.null, cs)
    | some 't' :: some 'r' :: some 'u' :: some 'e' :: cs => some (.boolean true, cs)
    | some 'f' :: some 'a' :: some 'l' :: some 's' :: some 'e' :: cs => some (.boolean false, cs)
    | some '"' :: cs => (readString cs).map fun (s?, cs) => (.string s?, cs)
    | some '[' :: cs =>
      match skipSpace cs with
      | some ']' :: cs => some (.array [], cs)
      | cs => (readItems fuel cs).map fun (vs, cs) => (.array vs, cs)
    | some '{' :: cs =>
      match skipSpace cs with
      | some '}' :: cs => some (.object [], cs)
      | cs => (readMembers fuel cs).map fun (ms, cs) => (.object ms, cs)
    | cs => readNumber cs

/-- Reads the items of an array, of which there is at least one, up to its
    closing bracket. -/
def readItems : Nat → List Text.Symbol → Option (List Json × List Text.Symbol)
  | 0, _ => none
  | fuel + 1, cs => do
    let (v, cs) ← readValue fuel cs
    match skipSpace cs with
    | some ',' :: cs =>
      let (vs, cs) ← readItems fuel cs
      return (v :: vs, cs)
    | some ']' :: cs => return ([v], cs)
    | _ => none

/-- Reads the members of an object, of which there is at least one, up to its
    closing brace. -/
def readMembers : Nat → List Text.Symbol → Option (List (Option String × Json) × List Text.Symbol)
  | 0, _ => none
  | fuel + 1, cs =>
    match skipSpace cs with
    | some '"' :: cs => do
      let (key?, cs) ← readString cs
      match skipSpace cs with
      | some ':' :: cs =>
        let (v, cs) ← readValue fuel cs
        match skipSpace cs with
        | some ',' :: cs =>
          let (ms, cs) ← readMembers fuel cs
          return ((key?, v) :: ms, cs)
        | some '}' :: cs => return ([(key?, v)], cs)
        | _ => none
      | _ => none
    | _ => none

end

/-- Reads a whole text as one value. -/
def read? (cs : List Text.Symbol) : Option Json := do
  let (v, rest) ← readValue (cs.length + 1) cs
  if skipSpace rest = [] then some v else none

end Json

end ProductSegments
