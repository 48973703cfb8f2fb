import ProductSegments.Keyed.Basic
import ProductSegments.Operator
import ProductSegments.Product.Basic

/-! # Predicates

  A clause is the condition that a predicate puts on one attribute. Equality
  has a form of its own; a comparison with `=` means the same and is a
  different clause.

  An attribute with several values passes when one of them does. `!=` passes
  when none of them is equal, so it passes for a missing attribute too.

  A predicate is a compiled segment: one clause for each of some fields, all of
  which have to hold. The predicate without clauses matches every product.
-/

namespace ProductSegments

/-- A checked rule: a field, an operator and a value. -/
structure Comparison where
  /-- The name of the attribute. -/
  field : String
  /-- The operator. -/
  op : Operator
  /-- The value that the attribute is compared with. -/
  value : Value
deriving DecidableEq

/-- The condition on one attribute. -/
inductive Clause where
  /-- The attribute equals the value. -/
  | equals (value : Value)
  /-- The attribute compares to the value as the operator says. -/
  | compare (op : Operator) (value : Value)
deriving DecidableEq

namespace Clause

/-- The operator of a clause. -/
def operator : Clause → Operator
  | .equals _ => .eq
  | .compare op _ => op

/-- The value of a clause. -/
def value : Clause → Value
  | .equals v => v
  | .compare _ v => v

/-- Whether some value of the attribute is comparable to `v` and ordered
    against it as the operator says. -/
def anyHolds (a : Attribute) (op : Operator) (v : Value) : Bool :=
  a.values.any fun w => (w.compare? v).any op.accepts

/-- Whether an attribute meets the condition. -/
def holds (c : Clause) (a : Attribute) : Bool :=
  match c.operator with
  | .ne => !anyHolds a .eq c.value
  | op => anyHolds a op c.value

/-- The text of a clause for people. -/
def display (c : Clause) : String := c.operator.symbol ++ " " ++ c.value.display

end Clause

/-- The clause of a comparison; equality takes its own form. -/
def Comparison.clause (c : Comparison) : Clause :=
  match c.op with
  | .eq => .equals c.value
  | op => .compare op c.value

/-! ### Predicates -/

/-- A conjunction of clauses on different fields, in order of the field names. -/
abbrev Predicate := Keyed Clause

namespace Predicate

/-- Whether a product meets every clause. -/
def matchesProduct (p : Predicate) (product : Product) : Bool :=
  p.entries.all fun e => e.2.holds (product.attributeAt e.1)

/-- The text of a predicate for people. -/
def display (p : Predicate) : String :=
  if p.isEmpty then "*"
  else " AND ".intercalate (p.entries.map fun e => e.1 ++ " " ++ e.2.display)

end Predicate

end ProductSegments
