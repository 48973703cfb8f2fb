import ProductSegments.Session.Step

/-! # Sessions

  A session holds a schema under construction, a schema, a catalog and a
  predicate. Steps are taken one after the other. A step that succeeds replies
  and leaves the session that the next step starts from; a step that fails
  leaves the session as it was.
-/

namespace ProductSegments

/-- The state of a session. -/
structure Session where
  /-- The declarations since the last build. -/
  builder : Schema := ∅
  /-- The schema that rules are checked against. -/
  schema : Schema := Schema.catalog
  /-- The catalog that is searched. -/
  catalog : Catalog := {}
  /-- The current predicate. -/
  predicate : Predicate := ∅
deriving DecidableEq

namespace Session

/-- The segmenter of a session. -/
def segmenter (s : Session) : Segmenter Catalog := ⟨s.schema, s.catalog⟩

/-- The session with another predicate, which is the reply. -/
def setPredicate (s : Session) (p : Predicate) : Session × Reply :=
  ({ s with predicate := p }, .predicate p)

/-- Takes a step: the session after it and the reply, or why it failed. -/
def perform (s : Session) : Step → Logged (Except StepError (Session × Reply))
  | .declare f => return .ok ({ s with builder := s.builder.declare f }, .done)
  | .build => return .ok ({ s with builder := ∅, schema := s.builder }, .schema s.builder)
  | .useSchema source =>
    return match source.load with
      | .ok schema => .ok ({ s with schema }, .schema schema)
      | .error e => .error (.schema e)
  | .lookUpField name => return .ok (s, .field (s.schema.spec? name))
  | .loadCatalog source =>
    return match source.load with
      | .ok catalog => .ok ({ s with catalog }, .catalog catalog)
      | .error e => .error (.catalog e)
  | .showCatalog => return .ok (s, .catalog s.catalog)
  | .showSegmenter => return .ok (s, .segmenter s.segmenter.display)
  | .compile rules => do
    match ← s.segmenter.compile rules with
    | .ok p => return .ok (s.setPredicate p)
    | .error e => return .error (.rule e)
  | .fold cs => do return .ok (s.setPredicate (← Predicate.ofComparisonsLogged cs))
  | .clearPredicate => return .ok (s.setPredicate ∅)
  | .insertClause field c =>
    let p := s.predicate.insert field c
    return .ok ({ s with predicate := p }, .inserted (s.predicate.get? field) p)
  | .lookUpClause field => return .ok (s, .clause (s.predicate.get? field))
  | .showPredicate => return .ok (s, .predicate s.predicate)
  | .testProduct product => return .ok (s, .answer (s.predicate.matchesProduct product))
  | .find => return .ok (s, .found ((s.catalog.select s.predicate).map (·.id)))
  | .evaluate rules => do
    match ← s.segmenter.evaluate rules with
    | .ok r => return .ok (s, .result r)
    | .error e => return .error (.evaluation e)
  | .evaluatePredicate => do
    match ← s.segmenter.evaluatePredicate s.predicate with
    | .ok r => return .ok (s, .result r)
    | .error e => return .error (.evaluation (.store e))
  | .evaluateBroken store rules => do
    match ← Segmenter.evaluate ⟨s.schema, store⟩ rules with
    | .ok r => return .ok (s, .result r)
    | .error e => return .error (.evaluation e)

/-- What a step replies, or why it fails, with its events. -/
def answer (s : Session) (step : Step) : Logged (Except StepError Reply) := do
  return (← s.perform step).map (·.2)

/-- The session after a step. -/
def after (s : Session) (step : Step) : Session :=
  match (s.perform step).value with
  | .ok (t, _) => t
  | .error _ => s

/-- The session after some steps. -/
def final (s : Session) (steps : List Step) : Session := steps.foldl after s

/-- The answers to some steps, each given in the session after those before. -/
def answers (s : Session) : List Step → List (Logged (Except StepError Reply))
  | [] => []
  | step :: steps => s.answer step :: (s.after step).answers steps

/-- The reply to the last of some steps that all have to succeed, or why the
    first step that fails does. -/
def lastReply (s : Session) : List Step → Except StepError Reply
  | [] => .ok .done
  | [step] => (s.answer step).value
  | step :: steps => do
    let (t, _) ← (s.perform step).value
    t.lastReply steps

end Session

end ProductSegments
