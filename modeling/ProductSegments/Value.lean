import ProductSegments.Double.Shortest

/-! # Values

  The values of product attributes and of rule literals: numbers, booleans and
  strings. Values of one kind are ordered, values of different kinds are not
  comparable.
-/

namespace ProductSegments

/-- A value of an attribute or a literal. -/
inductive Value where
  /-- A number. -/
  | number (x : Double)
  /-- A truth value. -/
  | boolean (b : Bool)
  /-- A text, case preserved. -/
  | string (s : String)
deriving DecidableEq

/-- The kinds of values. -/
inductive ValueKind where
  /-- Numbers. -/
  | number
  /-- Truth values. -/
  | boolean
  /-- Texts. -/
  | string
deriving DecidableEq

/-- The name of a kind of values. -/
def ValueKind.name : ValueKind → String
  | .number => "number"
  | .boolean => "boolean"
  | .string => "string"

namespace Value

/-- The kind of a value. -/
def kind : Value → ValueKind
  | .number _ => .number
  | .boolean _ => .boolean
  | .string _ => .string

/-- The value of an integer. -/
def ofInt (i : Int) : Value := .number (Double.ofInt i)

/-- The order of two values of one kind: numbers by size, false before true,
    strings by code points. Values of different kinds have none, nor has NaN. -/
def compare? : Value → Value → Option Ordering
  | .number x, .number y => x.compare? y
  | .boolean a, .boolean b => some (compare a b)
  | .string s, .string t => some (compare s t)
  | _, _ => none

/-- The text of a value for people; strings stand between quotes as they are. -/
def display : Value → String
  | .number x => String.ofList x.display
  | .boolean b => if b then "true" else "false"
  | .string s => "\"" ++ s ++ "\""

end Value

end ProductSegments
