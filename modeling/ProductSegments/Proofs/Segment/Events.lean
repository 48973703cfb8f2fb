import ProductSegments.Proofs.Predicate.Replacement
import ProductSegments.Proofs.Segment.Evaluation

/-! # What an evaluation reports

  The events of an evaluation are those of the compilation and then one of the
  store. Here they are described as the log shows them, from the lines of the
  text and the outcome alone:

  - `LogEntry` is what the log shows of an event.
  - `Rule.Replaces` says which entry two lines on one field leave.
  - `entries_evaluate`: the entries of a whole evaluation.
-/

namespace ProductSegments

/-- What the log shows of an event. -/
structure LogEntry where
  /-- How much the event matters. -/
  level : Level
  /-- What happened. -/
  message : String
  /-- The named texts. -/
  fields : List (String × String)

/-- The log entry of an event. -/
def Event.entry (e : Event) : LogEntry := ⟨e.level, e.message, e.fields⟩

/-! ### Compiling -/

namespace Rule

variable {schema : Schema} {text : String} {cs : List Comparison} {e : RuleError}

/-- The entry says that the second of two lines replaces the clause of the first. -/
def Replaces (schema : Schema) (pair : String × String) (entry : LogEntry) : Prop :=
  ∃ c field, compileLine schema pair.1 = .ok c ∧ namedField? pair.2 = some field ∧
    entry = ⟨.debug, "later rule replaces earlier clause",
      [("field", field), ("replaced", c.clause.display)]⟩

/-- Text that does not compile leaves no events of a fold. -/
theorem events_compileLogged_of_error (h : compile schema text = .error e) :
    (compileLogged schema text).events = [] := by
  have hcomparisons : comparisons schema text = .error e := Outcome.map_eq_error_iff.mp h
  unfold compileLogged
  rw [hcomparisons]
  rfl

/-- Text that compiles leaves the events of the fold of its comparisons. -/
theorem events_compileLogged_of_ok
    (h : List.Forall₂ (fun line c => compileLine schema line = .ok c) (lines text) cs) :
    (compileLogged schema text).events = (Predicate.ofComparisonsLogged cs).events := by
  have hcomparisons : comparisons schema text = .ok cs := Outcome.mapM_eq_ok_iff.mpr h
  unfold compileLogged
  rw [hcomparisons]
  exact List.append_nil _

/-- The comparisons of lines repeat a field where the lines do, and the events say
    so of each pair of lines. -/
theorem forall₂_replaces {ls : List String}
    (h : List.Forall₂ (fun line c => compileLine schema line = .ok c) ls cs) :
    List.Forall₂ (Replaces schema) (repeats namedField? ls)
      ((repeats Comparison.field cs).map fun x =>
        (Event.replacedClause x.2.field x.1.clause).entry) := by
  have hkey : ∀ line c line' c', compileLine schema line = .ok c →
      compileLine schema line' = .ok c' →
      (namedField? line' = namedField? line ↔ c'.field = c.field) := by
    intro line c line' c' hline hline'
    rw [namedField?_of_compileLine hline, namedField?_of_compileLine hline', Option.some_inj]
  rw [List.forall₂_map_right_iff]
  refine (forall₂_repeats hkey h).imp ?_
  intro pair x ⟨hearlier, hline⟩
  exact ⟨x.1, x.2.field, hearlier, namedField?_of_compileLine hline, rfl⟩

/-- Of three lines on the price the second replaces the first, and the third the
    second. -/
example : repeats namedField? ["price > 1", "on_sale = true", "price < 9", "price != 5"] =
    [("price > 1", "price < 9"), ("price < 9", "price != 5")] := by
  decide +kernel

end Rule

/-! ### Evaluating -/

namespace Segmenter

variable {σ : Type} [ProductStore σ] {s : Segmenter σ} {text : String} {p : Predicate}
  {cs : List Comparison} {e : RuleError}

/-- Rejected text leaves one event, whatever its lines in front are. -/
theorem events_evaluate_of_error (h : Rule.compile s.schema text = .error e) :
    (s.evaluate text).events = [.rejectedRules e] := by
  have hcompile : (s.compile text).events = [.rejectedRules e] := by
    unfold compile
    rw [Logged.events_bind, Rule.value_compileLogged, h, Rule.events_compileLogged_of_error h]
    rfl
  unfold evaluate
  rw [Logged.events_bind, value_compile, h, hcompile]
  rfl

/-- Text that compiles leaves the events of its fold and then those of the store. -/
theorem events_evaluate_of_ok
    (h : List.Forall₂ (fun line c => Rule.compileLine s.schema line = .ok c)
      (Rule.lines text) cs) :
    (s.evaluate text).events = (Predicate.ofComparisonsLogged cs).events ++
      (s.evaluatePredicate (.ofComparisons cs)).events := by
  have hp : Rule.compile s.schema text = .ok (.ofComparisons cs) :=
    Rule.compile_eq_ok_iff.mpr ⟨cs, h, rfl⟩
  have hcompile : (s.compile text).events = (Predicate.ofComparisonsLogged cs).events := by
    unfold compile
    rw [Logged.events_bind, Rule.value_compileLogged, hp, Rule.events_compileLogged_of_ok h]
    exact List.append_nil _
  unfold evaluate
  rw [Logged.events_bind, value_compile, hp, hcompile]
  exact congrArg _ (List.append_nil _)

/-- The store leaves one event, by its answer. -/
theorem events_evaluatePredicate (s : Segmenter σ) (p : Predicate) :
    (s.evaluatePredicate p).events =
      match ProductStore.find s.store p with
      | .ok found => [.evaluatedSegment p (.ofFound p found)]
      | .error e => [.failedQuery e] := by
  unfold evaluatePredicate
  cases ProductStore.find s.store p <;> rfl

/-- **Events.** An evaluation of text that does not compile shows its rejection in
    the log and nothing else. Otherwise the log shows a replacement for every line
    that names a field which an earlier line names, then how many lines were
    compiled to how many fields, and then the failure of the store or the
    predicate, the status and the number of the products found. -/
theorem entries_evaluate (s : Segmenter σ) (text : String) :
    match Rule.compile s.schema text with
    | .error e => (s.evaluate text).events.map Event.entry =
        [⟨.debug, "rejected segment rules", [("kind", e.fault.kindName), ("line", e.line)]⟩]
    | .ok p => ∃ replaced last,
        (s.evaluate text).events.map Event.entry = replaced ++
          [⟨.debug, "compiled segment predicate",
            [("rules", toString (Rule.lines text).length),
             ("clauses", toString (Rule.namedFields text).dedup.length)]⟩, last] ∧
        List.Forall₂ (Rule.Replaces s.schema) (repeats Rule.namedField? (Rule.lines text))
          replaced ∧
        match ProductStore.find s.store p with
        | .error e => (s.evaluate text).value = .error (.store e) ∧
            last = ⟨.warn, "product store query failed", [("error", e.message)]⟩
        | .ok _ => ∃ r, (s.evaluate text).value = .ok r ∧
            last = ⟨.debug, "evaluated segment",
              [("predicate", p.display), ("status", r.status.display),
               ("matched", toString r.products.length)]⟩ := by
  cases hc : Rule.compile s.schema text with
  | error e =>
    simp only [events_evaluate_of_error hc]
    rfl
  | ok p =>
    obtain ⟨cs, hcs, rfl⟩ := Rule.compile_eq_ok_iff.mp hc
    have hvalue := value_evaluate_of_ok hc
    -- the fold is the same whatever the store answers
    have hevents : (s.evaluate text).events.map Event.entry =
        (repeats Comparison.field cs).map (fun x =>
          (Event.replacedClause x.2.field x.1.clause).entry) ++
        (Event.compiledPredicate (Rule.lines text).length
          (Rule.namedFields text).dedup.length).entry ::
        (s.evaluatePredicate (.ofComparisons cs)).events.map Event.entry := by
      rw [events_evaluate_of_ok hcs, Predicate.events_ofComparisonsLogged,
        Rule.namedFields_eq_map hcs, hcs.length_eq]
      simp only [List.map_append, List.map_map, List.append_assoc]
      rfl
    rw [events_evaluatePredicate] at hevents
    dsimp only
    cases hf : ProductStore.find s.store (.ofComparisons cs) with
    | error e =>
      rw [hf] at hvalue hevents
      exact ⟨_, _, hevents, Rule.forall₂_replaces hcs, hvalue, rfl⟩
    | ok found =>
      rw [hf] at hvalue hevents
      exact ⟨_, _, hevents, Rule.forall₂_replaces hcs, _, hvalue, rfl⟩

end Segmenter

end ProductSegments
