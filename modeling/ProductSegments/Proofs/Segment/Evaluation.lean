import ProductSegments.Proofs.Rule.Compilation
import ProductSegments.Segment.Evaluate

/-! # The outcome of an evaluation

  An evaluation compiles the text and, if that succeeds, asks the store once.
  Its outcome is therefore that of the compilation, or that of the store for
  the compiled predicate:

  - `value_evaluate_of_error`: rejected text is rejected whatever the store.
  - `value_evaluate_of_ok`: compiled text has the outcome of the store.
  - `evaluate_failures`: which failure comes out of which text and store.
-/

namespace ProductSegments

namespace Segmenter

variable {σ : Type} [ProductStore σ] {s : Segmenter σ} {text : String} {p : Predicate}
  {e : RuleError}

omit [ProductStore σ] in
@[simp] theorem value_compile (s : Segmenter σ) (text : String) :
    (s.compile text).value = Rule.compile s.schema text := by
  unfold compile
  rw [Logged.value_bind, Rule.value_compileLogged]
  cases Rule.compile s.schema text <;> rfl

@[simp] theorem value_evaluatePredicate (s : Segmenter σ) (p : Predicate) :
    (s.evaluatePredicate p).value =
      (ProductStore.find s.store p).map (SegmentResult.ofFound p) := by
  unfold evaluatePredicate
  cases ProductStore.find s.store p <;> rfl

/-- Text that does not compile is rejected with the error of its compilation. -/
theorem value_evaluate_of_error (h : Rule.compile s.schema text = .error e) :
    (s.evaluate text).value = .error (.rule e) := by
  unfold evaluate
  rw [Logged.value_bind, value_compile, h]
  rfl

/-- Text that compiles has the outcome of the store for its predicate. -/
theorem value_evaluate_of_ok (h : Rule.compile s.schema text = .ok p) :
    (s.evaluate text).value =
      ((ProductStore.find s.store p).map (SegmentResult.ofFound p)).mapError .store := by
  unfold evaluate
  rw [Logged.value_bind, value_compile, h]
  simp only [Logged.value_bind, value_evaluatePredicate, Logged.value_pure]

theorem evaluate_eq_rule_error_iff :
    (s.evaluate text).value = .error (.rule e) ↔ Rule.compile s.schema text = .error e := by
  cases hc : Rule.compile s.schema text with
  | error e' =>
    rw [value_evaluate_of_error hc]
    simp
  | ok p =>
    rw [value_evaluate_of_ok hc]
    cases ProductStore.find s.store p <;> simp [Except.map, Except.mapError]

theorem evaluate_eq_store_error_iff {e : StoreError} :
    (s.evaluate text).value = .error (.store e) ↔
      ∃ p, Rule.compile s.schema text = .ok p ∧ ProductStore.find s.store p = .error e := by
  cases hc : Rule.compile s.schema text with
  | error e' =>
    rw [value_evaluate_of_error hc]
    simp
  | ok p =>
    rw [value_evaluate_of_ok hc]
    cases hf : ProductStore.find s.store p <;> simp [Except.map, Except.mapError, hf]

/-- **Failures.** An evaluation is rejected exactly when some line does not
    compile on its own, and then with the error of the first such line,
    whatever stands around it and whatever the store is. It fails for the store
    exactly when every line compiles and the store fails on the predicate. The
    kind of an error tells the two apart. -/
theorem evaluate_failures (s : Segmenter σ) (text : String) :
    ((∃ e, (s.evaluate text).value = .error (.rule e)) ↔
      ∃ line ∈ Rule.lines text, ¬ ∃ p, Rule.compile s.schema line = .ok p) ∧
    (∀ e, (s.evaluate text).value = .error (.rule e) ↔
      ∃ before line after, Rule.lines text = before ++ line :: after ∧
        (∀ l ∈ before, ∃ p, Rule.compile s.schema l = .ok p) ∧
        Rule.compile s.schema line = .error e) ∧
    (∀ e, (s.evaluate text).value = .error (.store e) ↔
      (∀ line ∈ Rule.lines text, ∃ p, Rule.compile s.schema line = .ok p) ∧
        ∃ p, Rule.compile s.schema text = .ok p ∧ ProductStore.find s.store p = .error e) ∧
    (∀ e : EvaluationError, e.kindName = "store_unavailable" ↔ ∃ e', e = .store e') := by
  refine ⟨?_, ?_, ?_, ?_⟩
  · have hrejected : (∃ e, (s.evaluate text).value = .error (.rule e)) ↔
        ¬ ∃ p, Rule.compile s.schema text = .ok p := by
      simp only [evaluate_eq_rule_error_iff]
      cases Rule.compile s.schema text <;> simp
    rw [hrejected, Rule.exists_compile_iff]
    -- not all lines compile exactly when one of them does not
    constructor
    · intro h
      by_contra hnone
      exact h fun l hl => by_contra fun hfail => hnone ⟨l, hl, hfail⟩
    · intro ⟨l, hl, hfail⟩ h
      exact hfail (h l hl)
  · intro e
    rw [evaluate_eq_rule_error_iff, Rule.compile_eq_error_iff]
  · intro e
    rw [evaluate_eq_store_error_iff]
    constructor
    · intro ⟨p, hp, he⟩
      exact ⟨Rule.exists_compile_iff.mp ⟨p, hp⟩, p, hp, he⟩
    · intro ⟨_, h⟩
      exact h
  · intro e
    cases e with
    | store e' => simp [EvaluationError.kindName]
    | rule e' =>
      obtain ⟨line, fault⟩ := e'
      cases fault <;> simp [EvaluationError.kindName, RuleFault.kindName]

end Segmenter

end ProductSegments
