import ProductSegments.Rule.Compile

/-! # Evaluating segments

  A segmenter evaluates rule text against a schema and a store. The text is
  compiled before the store is asked, so a rule error wins over a store error.
-/

namespace ProductSegments

/-- Why an evaluation failed. -/
inductive EvaluationError where
  /-- The rules were rejected. -/
  | rule (e : RuleError)
  /-- The store failed. -/
  | store (e : StoreError)
deriving DecidableEq

namespace EvaluationError

/-- Whether the one who wrote the rules can mend the error. -/
def isClientError : EvaluationError → Bool
  | .rule _ => true
  | .store _ => false

/-- The name of a kind of error. -/
def kindName : EvaluationError → String
  | .rule e => e.fault.kindName
  | .store _ => "store_unavailable"

/-- The message of an evaluation error. -/
def message : EvaluationError → String
  | .rule e => e.message
  | .store e => e.message

end EvaluationError

/-- A schema and a store to evaluate rules with. -/
structure Segmenter (σ : Type) where
  /-- The fields that rules may name. -/
  schema : Schema
  /-- The store that holds the products. -/
  store : σ

namespace Segmenter

variable {σ : Type} [ProductStore σ]

/-- The text of a segmenter for people. -/
def display (s : Segmenter σ) : String := "Segmenter(" ++ toString s.schema.size ++ " fields)"

/-- Compiles rule text, reporting its rejection. -/
def compile (s : Segmenter σ) (text : String) : Logged (Except RuleError Predicate) := do
  match ← Rule.compileLogged s.schema text with
  | .ok p => return .ok p
  | .error e =>
    Logged.event (.rejectedRules e)
    return .error e

/-- Asks the store for the products of a predicate. -/
def evaluatePredicate (s : Segmenter σ) (p : Predicate) :
    Logged (Except StoreError SegmentResult) := do
  match ProductStore.find s.store p with
  | .ok found =>
    let result := SegmentResult.ofFound p found
    Logged.event (.evaluatedSegment p result)
    return .ok result
  | .error e =>
    Logged.event (.failedQuery e)
    return .error e

/-- Compiles rule text and asks the store for the products of its predicate. -/
def evaluate (s : Segmenter σ) (text : String) :
    Logged (Except EvaluationError SegmentResult) := do
  match ← s.compile text with
  | .error e => return .error (.rule e)
  | .ok p => return (← s.evaluatePredicate p).mapError .store

end Segmenter

end ProductSegments
