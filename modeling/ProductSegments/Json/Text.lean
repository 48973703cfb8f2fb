import ProductSegments.Json.Number

/-! # Writing JSON text

  JSON is written without spaces. Strings escape quotes, backslashes and the
  control characters below U+0020, the latter by a letter where there is one;
  all other characters stand for themselves.
-/

namespace ProductSegments

namespace Json

/-! ### Strings -/

/-- The lower-case hexadecimal digit of a number below 16. -/
def hexDigit (n : Nat) : Char := Nat.digitChar n

/-- A character as it stands inside a string. -/
def escaped (c : Char) : List Char :=
  match c with
  | '"' => ['\\', '"']
  | '\\' => ['\\', '\\']
  | '\x08' => ['\\', 'b']
  | '\x0c' => ['\\', 'f']
  | '\n' => ['\\', 'n']
  | '\r' => ['\\', 'r']
  | '\t' => ['\\', 't']
  | c =>
    if c.toNat < 0x20 then ['\\', 'u', '0', '0', hexDigit (c.toNat / 16), hexDigit (c.toNat % 16)]
    else [c]

/-- A text between quotes. -/
def quotedText (s : String) : List Char := '"' :: (s.toList.flatMap escaped ++ ['"'])

/-- A string; one that denotes no text is written as half of a surrogate pair. -/
def stringText : Option String → List Char
  | some s => quotedText s
  | none => ['"', '\\', 'u', 'd', '8', '0', '0', '"']

/-! ### Values -/

mutual

/-- The text of a value. -/
def write : Json → List Char
  | .null => ['n', 'u', 'l', 'l']
  | .boolean true => ['t', 'r', 'u', 'e']
  | .boolean false => ['f', 'a', 'l', 's', 'e']
  | .integer negative n => Decimal.withSign negative (Nat.toDigits 10 n)
  | .real n => n.text
  | .string s? => stringText s?
  | .array items => '[' :: (writeItems items ++ [']'])
  | .object members => '{' :: (writeMembers members ++ ['}'])

/-- The texts of items with commas between them. -/
def writeItems : List Json → List Char
  | [] => []
  | [v] => write v
  | v :: vs => write v ++ ',' :: writeItems vs

/-- The texts of members with commas between them. -/
def writeMembers : List (Option String × Json) → List Char
  | [] => []
  | [m] => stringText m.1 ++ ':' :: write m.2
  | m :: ms => stringText m.1 ++ ':' :: (write m.2 ++ ',' :: writeMembers ms)

end

/-- The text of a value as a string. -/
def toText (j : Json) : String := String.ofList j.write

end Json

end ProductSegments
