/-! # Comparison operators

  The six operators of the rule language. An operator is written as its exact
  symbol, so a longer run of the same characters (`==`, `=>`, `<>`) is none.
-/

namespace ProductSegments

/-- A comparison operator. -/
inductive Operator where
  /-- Equal. -/
  | eq
  /-- Not equal. -/
  | ne
  /-- Greater. -/
  | gt
  /-- Greater or equal. -/
  | ge
  /-- Less. -/
  | lt
  /-- Less or equal. -/
  | le
deriving DecidableEq

namespace Operator

/-- All operators. -/
def all : List Operator := [.eq, .ne, .gt, .ge, .lt, .le]

/-- The text of the operator in a rule. -/
def symbol : Operator → String
  | .eq => "="
  | .ne => "!="
  | .gt => ">"
  | .ge => ">="
  | .lt => "<"
  | .le => "<="

/-- The operator with the given symbol. -/
def ofSymbol? (token : String) : Option Operator := all.find? fun op => op.symbol == token

/-- Whether a value that is so ordered against another one satisfies the
    operator. -/
def accepts : Operator → Ordering → Bool
  | .eq, o => o.isEq
  | .ne, o => o.isNe
  | .gt, o => o.isGT
  | .ge, o => o.isGE
  | .lt, o => o.isLT
  | .le, o => o.isLE

theorem mem_all (op : Operator) : op ∈ all := by cases op <;> decide

theorem symbol_injective {op op' : Operator} (h : op.symbol = op'.symbol) : op = op' := by
  cases op <;> cases op' <;> first | rfl | exact absurd h (by decide)

/-- Every operator is read from its symbol, and from nothing else. -/
theorem ofSymbol?_eq_some_iff {token : String} {op : Operator} :
    ofSymbol? token = some op ↔ op.symbol = token := by
  constructor
  · intro h
    simpa using List.find?_some h
  · rintro rfl
    cases h : ofSymbol? op.symbol with
    | none =>
      have := List.find?_eq_none.1 h op (mem_all op)
      simp at this
    | some op' =>
      have hs : op'.symbol = op.symbol := by simpa using List.find?_some h
      rw [symbol_injective hs]

end Operator

end ProductSegments
