import ProductSegments.Rule.Error
import ProductSegments.Segment.Result
import ProductSegments.Store.Basic

/-! # Log events

  What the library reports while it works. Events are data: an operation that
  logs returns its value together with the events in the order in which they
  occur. How an event reads, by level, message and named texts, is said here
  and nowhere else.
-/

namespace ProductSegments

/-- Something that happened. -/
inductive Event where
  /-- A later comparison on a field replaced the clause of an earlier one. -/
  | replacedClause (field : String) (earlier : Clause)
  /-- A number of comparisons were compiled to a number of clauses. -/
  | compiledPredicate (rules clauses : Nat)
  /-- Rule text was rejected. -/
  | rejectedRules (e : RuleError)
  /-- A predicate was evaluated. -/
  | evaluatedSegment (p : Predicate) (r : SegmentResult)
  /-- The store failed. -/
  | failedQuery (e : StoreError)
deriving DecidableEq

/-- How much an event matters. -/
inductive Level where
  /-- Of interest when looking for faults. -/
  | debug
  /-- Of interest always. -/
  | warn
deriving DecidableEq

/-- The name of a level. -/
def Level.name : Level → String
  | .debug => "DEBUG"
  | .warn => "WARN"

namespace Event

/-- The level of an event. -/
def level : Event → Level
  | .failedQuery _ => .warn
  | _ => .debug

/-- The message of an event. -/
def message : Event → String
  | .replacedClause _ _ => "later rule replaces earlier clause"
  | .compiledPredicate _ _ => "compiled segment predicate"
  | .rejectedRules _ => "rejected segment rules"
  | .evaluatedSegment _ _ => "evaluated segment"
  | .failedQuery _ => "product store query failed"

/-- The named texts of an event. -/
def fields : Event → List (String × String)
  | .replacedClause field earlier => [("field", field), ("replaced", earlier.display)]
  | .compiledPredicate rules clauses =>
    [("rules", toString rules), ("clauses", toString clauses)]
  | .rejectedRules e => [("kind", e.fault.kindName), ("line", e.line)]
  | .evaluatedSegment p r =>
    [("predicate", p.display), ("status", r.status.display),
     ("matched", toString r.products.length)]
  | .failedQuery e => [("error", e.message)]

end Event

/-! ### Values with events -/

/-- A value with the events that occurred while it was made. -/
structure Logged (α : Type) where
  /-- The value. -/
  value : α
  /-- The events in their order. -/
  events : List Event

namespace Logged

/-- An event and no value of interest. -/
def event (e : Event) : Logged Unit := ⟨(), [e]⟩

instance : Monad Logged where
  pure a := ⟨a, []⟩
  bind x f := ⟨(f x.value).value, x.events ++ (f x.value).events⟩

variable {α β : Type}

@[simp] theorem value_pure (a : α) : (pure a : Logged α).value = a := rfl

@[simp] theorem events_pure (a : α) : (pure a : Logged α).events = [] := rfl

@[simp] theorem value_bind (x : Logged α) (f : α → Logged β) :
    (x >>= f).value = (f x.value).value := rfl

@[simp] theorem events_bind (x : Logged α) (f : α → Logged β) :
    (x >>= f).events = x.events ++ (f x.value).events := rfl

end Logged

end ProductSegments
