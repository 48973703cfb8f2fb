import ProductSegments.Decimal.Numeral
import ProductSegments.Predicate.Basic
import ProductSegments.Rule.Tokens
import ProductSegments.Schema.Basic

/-! # Checking rules against a schema

  A tokenized rule becomes a comparison when its field is declared, its
  operator is one of the six, and its literal fits the kind of the field. The
  three are checked in this order and the first failure is reported.

  When nothing is known about its field, a literal of `true` or `false` is a
  boolean, a plain decimal numeral that is finite as a double-precision number is
  that number, and everything else is a string.
-/

namespace ProductSegments

namespace Rule

/-! ### Literals -/

/-- The number that a text denotes as a whole, if it is finite. -/
def numberLiteral? (cs : List Char) : Option Double :=
  ((Numeral.read? cs).map Double.ofNumeral).filter Double.isFinite

/-- The value of a literal, blanks around it put aside. -/
def coerce (literal : String) : Value :=
  let literal := Text.trimmed literal
  if literal = "true" then .boolean true
  else if literal = "false" then .boolean false
  else match numberLiteral? literal.toList with
    | some x => .number x
    | none => .string literal

/-! ### Comparisons -/

/-- The value of a literal for a field of the given kind. Numbers and booleans
    are coerced; strings and enumerations take the literal as written. -/
def typedValue (t : Tokens) : FieldKind → Except RuleFault Value
  | .number =>
    match coerce t.literal with
    | .number x => .ok (.number x)
    | _ => .error (.typeMismatch t.field t.literal .number)
  | .boolean =>
    match coerce t.literal with
    | .boolean b => .ok (.boolean b)
    | _ => .error (.typeMismatch t.field t.literal .boolean)
  | .string => .ok (.string t.literal)
  | .enumeration allowed =>
    if allowed.contains t.literal then .ok (.string t.literal)
    else .error (.invalidEnumValue t.field t.literal allowed.toList)

/-- What a tokenized rule says, if the schema allows it. The comparison is on the
    name that the schema has for the field. -/
def comparison? (schema : Schema) (t : Tokens) : Except RuleFault Comparison := do
  let some spec := schema.spec? t.field | throw (.unknownField t.field)
  let some op := Operator.ofSymbol? t.operator | throw (.unsupportedOperator t.operator)
  return ⟨spec.name, op, ← typedValue t spec.kind⟩

/-- Checks a tokenized rule against a schema. -/
def validate (schema : Schema) (t : Tokens) : Except RuleError Comparison :=
  (comparison? schema t).mapError fun fault => ⟨t.line, fault⟩

/-- Reads a rule line and checks it against a schema. -/
def compileLine (schema : Schema) (line : String) : Except RuleError Comparison :=
  tokenizeLine line >>= validate schema

/-- The comparisons of all lines of a text, or the error of the first line that
    fails. -/
def comparisons (schema : Schema) (text : String) : Except RuleError (List Comparison) :=
  (lines text).mapM (compileLine schema)

end Rule

end ProductSegments
