/-! # JSON

  JSON text as a tree. The tree keeps what JSON text itself tells apart: a
  number without fraction and exponent is an integer, any other is real, and
  the members of an object stand in their order, repeated keys included.

  A string may escape half of a surrogate pair without the other half, or hold
  bytes that belong to no character. Such a string is well-formed and denotes
  no text.
-/

namespace ProductSegments

/-- A number with a fraction or an exponent, as it is written. -/
structure Json.Real where
  /-- Whether a minus sign stands in front. -/
  negative : Bool
  /-- The digits in front of the point and behind it, as one number. -/
  digits : Nat
  /-- How many of the digits stand behind the point. -/
  places : Nat
  /-- The exponent, if one is written. -/
  exponent? : Option Int
  /-- Without an exponent there is a fraction. -/
  places_pos : exponent? = none → 0 < places

/-- A JSON value. -/
inductive Json where
  /-- The null value. -/
  | null
  /-- A truth value. -/
  | boolean (b : Bool)
  /-- A number written with digits only, behind a minus sign if negative. -/
  | integer (negative : Bool) (n : Nat)
  /-- A number with a fraction or an exponent. -/
  | real (n : Json.Real)
  /-- A string, or `none` if it denotes no text. -/
  | string (text? : Option String)
  /-- A list of values. -/
  | array (items : List Json)
  /-- Members with their keys; `none` is a key that denotes no text. -/
  | object (members : List (Option String × Json))

namespace Json

/-- The string value of a text. -/
def text (s : String) : Json := .string (some s)

/-- The string value of a text that may be unset. -/
def optionalText (s? : Option String) : Json := s?.elim .null text

/-- The object with the given members. -/
def ofMembers (ms : List (String × Json)) : Json := .object (ms.map fun m => (some m.1, m.2))

/-- The value of an integer. -/
def ofInt (i : Int) : Json := .integer (i < 0) i.natAbs

end Json

end ProductSegments
