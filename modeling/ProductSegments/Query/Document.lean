import ProductSegments.Json.Text
import ProductSegments.Predicate.Basic

/-! # Query documents

  A predicate as a query for a document store: one key for each field, which
  holds the bare value for equality and an object with one operator otherwise.
-/

namespace ProductSegments

/-- The JSON value of a value. -/
def Value.toJson : Value → Json
  | .number x => Json.ofDouble x
  | .boolean b => .boolean b
  | .string s => .text s

/-- The name of an operator in a query document; equality has none. -/
def Operator.queryName? : Operator → Option String
  | .eq => none
  | .ne => some "$ne"
  | .gt => some "$gt"
  | .ge => some "$gte"
  | .lt => some "$lt"
  | .le => some "$lte"

/-- The condition of a clause in a query document. -/
def Clause.toJson (c : Clause) : Json :=
  match c.operator.queryName? with
  | none => c.value.toJson
  | some name => .ofMembers [(name, c.value.toJson)]

/-- The query document of a predicate. -/
def Predicate.document (p : Predicate) : Json :=
  .ofMembers (p.entries.map fun e => (e.1, e.2.toJson))

end ProductSegments
