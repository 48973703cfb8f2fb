import ProductSegments.Log
import ProductSegments.Rule.Check

/-! # Compiling rules

  Comparisons are folded into a predicate from first to last: a later
  comparison on a field replaces the clause of an earlier one. Rule text
  compiles to the fold of its comparisons, unless a line fails.

  The logged forms report every replaced clause and, at the end, how many
  comparisons became how many clauses. Rejected text leaves no fold events.
-/

namespace ProductSegments

namespace Predicate

/-- Adds the clause of a comparison, replacing an earlier one on the field. -/
def add (p : Predicate) (c : Comparison) : Predicate := p.insert c.field c.clause

/-- The predicate of a list of comparisons. -/
def ofComparisons (cs : List Comparison) : Predicate := cs.foldl add ∅

/-- Adds the clause of a comparison and reports the clause that it replaces. -/
def addLogged (p : Predicate) (c : Comparison) : Logged Predicate :=
  ⟨p.add c, ((p.get? c.field).map (Event.replacedClause c.field)).toList⟩

/-- Adds the clauses of comparisons and reports the clauses that they replace. -/
def addAllLogged : Predicate → List Comparison → Logged Predicate
  | p, [] => pure p
  | p, c :: cs => do addAllLogged (← p.addLogged c) cs

/-- The predicate of a list of comparisons, with the events of the fold. -/
def ofComparisonsLogged (cs : List Comparison) : Logged Predicate := do
  let p ← addAllLogged ∅ cs
  Logged.event (.compiledPredicate cs.length p.size)
  return p

theorem value_addAllLogged (p : Predicate) (cs : List Comparison) :
    (addAllLogged p cs).value = cs.foldl add p := by
  induction cs generalizing p with
  | nil => rfl
  | cons c cs ih => simp [addAllLogged, ih, addLogged]

@[simp] theorem value_ofComparisonsLogged (cs : List Comparison) :
    (ofComparisonsLogged cs).value = ofComparisons cs := by
  simp [ofComparisonsLogged, value_addAllLogged, ofComparisons]

end Predicate

namespace Rule

/-- The predicate of rule text, or the error of the first line that fails. -/
def compile (schema : Schema) (text : String) : Except RuleError Predicate :=
  (comparisons schema text).map Predicate.ofComparisons

/-- The predicate of rule text, with the events of its compilation. -/
def compileLogged (schema : Schema) (text : String) : Logged (Except RuleError Predicate) :=
  match comparisons schema text with
  | .error e => return .error e
  | .ok cs => return .ok (← Predicate.ofComparisonsLogged cs)

@[simp] theorem value_compileLogged (schema : Schema) (text : String) :
    (compileLogged schema text).value = compile schema text := by
  unfold compileLogged compile
  split <;> next h => simp [h, Except.map]

end Rule

end ProductSegments
