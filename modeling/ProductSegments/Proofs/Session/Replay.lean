import ProductSegments.Session.Run

/-! # Replaying a session

  Steps that fail and steps that only look at the session leave no trace in it:
  without them the session ends in the same state, and every other step is
  answered in the same way.

  - `eq_of_perform_of_onlyReads`: what reading steps do to a session.
  - `after_eq_self`: a step that fails or only reads is followed by the session
    that it was taken in.
  - `final_and_answers_effective`: the steps that are left give the same session
    and the same answers.
-/

namespace ProductSegments

namespace Session

variable {s t : Session} {step : Step} {reply : Reply}

/-- The steps that succeed and do more than read, each with its answer. -/
def effective (s : Session) (steps : List Step) :
    List (Step × Logged (Except StepError Reply)) :=
  (steps.zip (s.answers steps)).filter fun x => !x.1.onlyReads && x.2.value.isOk

/-! ### One step -/

/-- A step that only reads succeeds with the session as it is. -/
theorem eq_of_perform_of_onlyReads (hreads : step.onlyReads = true)
    (h : (s.perform step).value = .ok (t, reply)) : t = s := by
  cases step with
  | declare | build | useSchema | loadCatalog | compile | fold | clearPredicate | insertClause =>
    cases hreads
  | lookUpField | showCatalog | showSegmenter | lookUpClause | showPredicate | testProduct
  | find =>
    cases h
    rfl
  | evaluate | evaluatePredicate | evaluateBroken =>
    unfold perform at h
    rw [Logged.value_bind] at h
    -- an evaluation answers with a result or an error, and with no session of its own
    split at h
    · cases h
      rfl
    · cases h

/-- A step that fails, or that only reads, is followed by the session that it was
    taken in. -/
theorem after_eq_self (h : ¬ (!step.onlyReads && (s.answer step).value.isOk) = true) :
    s.after step = s := by
  unfold after
  cases hperform : (s.perform step).value with
  | error e => rfl
  | ok result =>
    have hok : (s.answer step).value.isOk = true := by
      unfold answer
      rw [Logged.value_bind, hperform]
      rfl
    have hreads : step.onlyReads = true := by simpa [hok] using h
    exact eq_of_perform_of_onlyReads hreads hperform

/-! ### All steps -/

/-- **Replay.** Without the steps that fail and those that only read, a session ends
    with the same builder, schema, catalog and predicate, and the steps that are left
    have the answers that they had, whatever session is started from. -/
theorem final_and_answers_effective (s : Session) (steps : List Step) :
    s.final ((s.effective steps).map (·.1)) = s.final steps ∧
      s.answers ((s.effective steps).map (·.1)) = (s.effective steps).map (·.2) := by
  induction steps generalizing s with
  | nil => exact ⟨rfl, rfl⟩
  | cons step steps ih =>
    obtain ⟨hfinal, hanswers⟩ := ih (s.after step)
    by_cases heffective : (!step.onlyReads && (s.answer step).value.isOk) = true
    · have hcons : s.effective (step :: steps) =
          (step, s.answer step) :: (s.after step).effective steps :=
        List.filter_cons_of_pos heffective
      rw [hcons]
      exact ⟨hfinal, congrArg (s.answer step :: ·) hanswers⟩
    · -- the step is left out, and the others start from the same session
      have hcons : s.effective (step :: steps) = (s.after step).effective steps :=
        List.filter_cons_of_neg heffective
      have hafter : s.after step = s := after_eq_self heffective
      rw [hafter] at hfinal hanswers hcons
      rw [hcons]
      refine ⟨?_, hanswers⟩
      show s.final ((s.effective steps).map (·.1)) = (s.after step).final steps
      rw [hafter]
      exact hfinal

/-- A line without a literal is rejected and the look-up only reads. -/
example : (effective {} [.compile "price >", .lookUpClause "price", .compile "price > 1"]).map
    (·.1) = [.compile "price > 1"] := by
  decide +kernel

end Session

end ProductSegments
