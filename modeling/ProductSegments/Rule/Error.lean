import ProductSegments.Value

/-! # Rule errors

  Why a rule line was rejected. An error carries the line as it stands in the
  text; of a whole text only the first failing line is reported.
-/

namespace ProductSegments

/-- What is wrong with a rule line. -/
inductive RuleFault where
  /-- The line does not split into a field, an operator and a literal. -/
  | malformed
  /-- The schema does not declare the field. -/
  | unknownField (field : String)
  /-- The operator token is none of the six operators. -/
  | unsupportedOperator (operator : String)
  /-- The literal is not of the kind that the field takes. -/
  | typeMismatch (field literal : String) (expected : ValueKind)
  /-- The literal is not among the values of the field, which are listed in
      ascending order. -/
  | invalidEnumValue (field literal : String) (allowed : List String)
deriving DecidableEq

/-- A rejected rule line. -/
structure RuleError where
  /-- The line. -/
  line : String
  /-- What is wrong with it. -/
  fault : RuleFault
deriving DecidableEq

/-- The name of a kind of fault. -/
def RuleFault.kindName : RuleFault → String
  | .malformed => "malformed_rule"
  | .unknownField _ => "unknown_field"
  | .unsupportedOperator _ => "unsupported_operator"
  | .typeMismatch _ _ _ => "type_mismatch"
  | .invalidEnumValue _ _ _ => "invalid_enum_value"

/-- A text between single quotes. -/
def quoted (s : String) : String := "'" ++ s ++ "'"

/-- The message of a rule error. -/
def RuleError.message (e : RuleError) : String :=
  match e.fault with
  | .malformed => "malformed rule " ++ quoted e.line ++ ": expected `<field> <operator> <value>`"
  | .unknownField field => "unknown field " ++ quoted field ++ " in rule " ++ quoted e.line
  | .unsupportedOperator op => "unsupported operator " ++ quoted op ++ " in rule " ++ quoted e.line
  | .typeMismatch field literal expected =>
    "field " ++ quoted field ++ " expects a " ++ expected.name ++ " but got " ++ quoted literal ++
      " in rule " ++ quoted e.line
  | .invalidEnumValue field literal allowed =>
    "invalid value " ++ quoted literal ++ " for field " ++ quoted field ++ " in rule " ++
      quoted e.line ++ "; expected one of: " ++ ", ".intercalate allowed

end ProductSegments
