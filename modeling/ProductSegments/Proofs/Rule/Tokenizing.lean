import ProductSegments.Proofs.Rule.Rejection

/-! # Tokenizing a whole text

  The lines of a text can all be split into tokens first and checked afterwards, or
  each line can be checked before the next one is split, as compiling does. Both
  accept the same texts up to checking. They may report different lines, since a line
  that is split can still be rejected:

  - `FailsAt`: the place of the line that a reading of the lines rejects.
  - `compileLine_eq_error_iff_tokenizeLine`: a line fails to split or fails to check.
  - `failsAt_compileLine_of_failsAt_tokenizeLine`: compiling does not get past a line
    that does not split.
  - `tokenize_compile`: how the outcomes of the two go together.
-/

namespace ProductSegments

namespace Rule

/-- Reading the lines of a text one after the other gets as far as the place and is
    stopped there by an error. -/
structure FailsAt {α : Type} (read : String → Except RuleError α) (text : String) (i : Nat)
    (e : RuleError) : Prop where
  /-- The lines in front are read. -/
  front : ∀ line ∈ (lines text).take i, ∃ a, read line = .ok a
  /-- The error holds the line at the place. -/
  line : (lines text)[i]? = some e.line
  /-- This line fails with the error. -/
  rejected : read e.line = .error e

variable {α : Type} {read : String → Except RuleError α} {schema : Schema} {text line : String}
  {t : Tokens} {p : Predicate} {e e' : RuleError} {i j : Nat}

/-! ### The place of a failure -/

/-- A reading whose errors hold their lines fails at some place or not at all. -/
theorem mapM_lines_eq_error_iff (hread : ∀ line e, read line = .error e → e.line = line) :
    (lines text).mapM read = .error e ↔ ∃ i, FailsAt read text i e := by
  rw [Outcome.mapM_eq_error_iff]
  constructor
  · intro ⟨before, line, after, hlines, hbefore, herror⟩
    obtain rfl := hread line e herror
    refine ⟨before.length, ?_, ?_, herror⟩
    · rw [hlines, List.take_left]
      exact hbefore
    · rw [hlines]
      simp
  · intro ⟨i, hfront, hline, hrejected⟩
    obtain ⟨hi, hget⟩ := List.getElem?_eq_some_iff.mp hline
    refine ⟨(lines text).take i, e.line, (lines text).drop (i + 1), ?_, hfront, hrejected⟩
    rw [← hget, ← List.drop_eq_getElem_cons hi, List.take_append_drop]

theorem tokenize_eq_error_iff :
    tokenize text = .error e ↔ ∃ i, FailsAt tokenizeLine text i e := by
  refine mapM_lines_eq_error_iff fun line e h => ?_
  rw [eq_malformed_of_tokenizeLine h]

theorem compile_eq_error_iff_failsAt :
    compile schema text = .error e ↔ ∃ i, FailsAt (compileLine schema) text i e := by
  unfold compile comparisons
  rw [Outcome.map_eq_error_iff]
  exact mapM_lines_eq_error_iff fun line e h => (compileLine_eq_error_iff.mp h).1

theorem mem_take_of_getElem? {l : List String} (h : l[j]? = some line) (hlt : j < i) :
    line ∈ l.take i := by
  rw [List.mem_iff_getElem?]
  exact ⟨j, by rw [List.getElem?_take_of_lt hlt, h]⟩

/-- A reading does not get past a line that it rejects. -/
theorem FailsAt.le_of_rejected (h : FailsAt read text i e) (hline : (lines text)[j]? = some line)
    (hrejected : read line = .error e') : i ≤ j := by
  apply Nat.le_of_not_lt
  intro hlt
  obtain ⟨a, ha⟩ := h.front line (mem_take_of_getElem? hline hlt)
  rw [hrejected] at ha
  cases ha

/-! ### One line -/

/-- A line fails when it does not split or when its tokens do not pass the check. -/
theorem compileLine_eq_error_iff_tokenizeLine :
    compileLine schema line = .error e ↔ tokenizeLine line = .error e ∨
      ∃ t, tokenizeLine line = .ok t ∧ validate schema t = .error e :=
  Outcome.bind_eq_error_iff

theorem exists_tokenizeLine_of_compileLine (h : ∃ c, compileLine schema line = .ok c) :
    ∃ t, tokenizeLine line = .ok t := by
  obtain ⟨c, hc⟩ := h
  obtain ⟨t, ht, -⟩ := compileLine_eq_ok_iff.mp hc
  exact ⟨t, ht⟩

/-- Tokens are never rejected as malformed. -/
theorem fault_ne_malformed_of_validate (h : validate schema t = .error e) :
    e.fault ≠ .malformed := by
  obtain ⟨fault, hfault, rfl⟩ := Outcome.mapError_eq_error_iff.mp h
  rw [comparison?_eq_error_iff] at hfault
  cases hfault <;> simp

/-- A malformed line does not split. -/
theorem tokenizeLine_of_compileLine_malformed (h : compileLine schema line = .error e)
    (hfault : e.fault = .malformed) : tokenizeLine line = .error e := by
  rcases compileLine_eq_error_iff_tokenizeLine.mp h with h | ⟨t, -, ht⟩
  · exact h
  · exact absurd hfault (fault_ne_malformed_of_validate ht)

/-- A line that fails otherwise has tokens, which do not pass the check. -/
theorem exists_validate_of_compileLine (h : compileLine schema line = .error e)
    (hfault : e.fault ≠ .malformed) :
    ∃ t, tokenizeLine line = .ok t ∧ validate schema t = .error e := by
  rcases compileLine_eq_error_iff_tokenizeLine.mp h with h | h
  · rw [eq_malformed_of_tokenizeLine h] at hfault
    exact absurd rfl hfault
  · exact h

/-! ### Whole texts -/

/-- Compiling is tokenizing and checking the tokens, where both succeed. -/
theorem compile_eq_ok_iff_tokenize :
    compile schema text = .ok p ↔ ∃ ts, tokenize text = .ok ts ∧
      ∃ cs, ts.mapM (validate schema) = .ok cs ∧ Predicate.ofComparisons cs = p := by
  have hpass : ∀ cs, comparisons schema text = .ok cs ↔
      ∃ ts, tokenize text = .ok ts ∧ ts.mapM (validate schema) = .ok cs :=
    fun cs => Outcome.mapM_bind_eq_ok_iff
  unfold compile
  simp only [Outcome.map_eq_ok_iff, hpass]
  constructor
  · intro ⟨cs, ⟨ts, hts, hcs⟩, hp⟩
    exact ⟨ts, hts, cs, hcs, hp⟩
  · intro ⟨ts, hts, cs, hcs, hp⟩
    exact ⟨cs, ⟨ts, hts, hcs⟩, hp⟩

/-- The tokens of a text are those of its lines, one line after the other. -/
theorem forall₂_of_tokenize {ts : List Tokens} (h : tokenize text = .ok ts) :
    List.Forall₂ (fun line t => tokenizeLine line = .ok t ∧ t.line = line) (lines text) ts :=
  (Outcome.mapM_eq_ok_iff.mp h).imp fun _ _ ht => ⟨ht, line_of_tokenizeLine ht⟩

/-- All lines up to one that fails to check are split. -/
theorem FailsAt.exists_tokenizeLine (h : FailsAt (compileLine schema) text i e)
    (hfault : e.fault ≠ .malformed) (hline : line ∈ (lines text).take (i + 1)) :
    ∃ t, tokenizeLine line = .ok t := by
  rw [List.take_add_one, h.line, List.mem_append, Option.toList_some, List.mem_singleton] at hline
  rcases hline with hline | rfl
  · exact exists_tokenizeLine_of_compileLine (h.front line hline)
  · obtain ⟨t, ht, -⟩ := exists_validate_of_compileLine h.rejected hfault
    exact ⟨t, ht⟩

/-- Compiling does not get past a line that does not split. It fails there, or at an
    earlier line whose tokens do not pass the check. -/
theorem failsAt_compileLine_of_failsAt_tokenizeLine (schema : Schema)
    (h : FailsAt tokenizeLine text i e) :
    FailsAt (compileLine schema) text i e ∨
      ∃ j < i, ∃ e', FailsAt (compileLine schema) text j e' ∧
        ∃ t, tokenizeLine e'.line = .ok t ∧ validate schema t = .error e' := by
  have hrejected : compileLine schema e.line = .error e :=
    compileLine_eq_error_iff_tokenizeLine.mpr (.inl h.rejected)
  have htokenize : tokenize text = .error e := tokenize_eq_error_iff.mpr ⟨i, h⟩
  cases hcompile : compile schema text with
  | ok p =>
    obtain ⟨ts, hts, -⟩ := compile_eq_ok_iff_tokenize.mp hcompile
    rw [htokenize] at hts
    cases hts
  | error e' =>
    obtain ⟨j, hj⟩ := compile_eq_error_iff_failsAt.mp hcompile
    rcases Nat.eq_or_lt_of_le (hj.le_of_rejected h.line hrejected) with rfl | hlt
    · -- both readings fail on one line, with the error that the line has
      have hline : e.line = e'.line := Option.some.inj (h.line.symm.trans hj.line)
      have herror := hj.rejected
      rw [← hline, hrejected] at herror
      cases herror
      exact .inl hj
    · -- the line is in front of the one that does not split
      obtain ⟨t, ht⟩ := h.front e'.line (mem_take_of_getElem? hj.line hlt)
      rcases compileLine_eq_error_iff_tokenizeLine.mp hj.rejected with hnone | hcheck
      · rw [hnone] at ht
        cases ht
      · exact .inr ⟨j, hlt, e', hj, hcheck⟩

/-- **Tokenizing and compiling.** If a text compiles, it has tokens for each line,
    and the predicate is the fold of the comparisons that they are checked to be. If
    compiling fails on a malformed line, tokenizing fails with the same error, and if
    it fails otherwise, all lines up to the reported one have tokens. Where tokenizing
    fails, compiling fails on the same line with the same error, or on an earlier line
    because its tokens do not pass the check. -/
theorem tokenize_compile (schema : Schema) (text : String) :
    (∀ p, compile schema text = .ok p → ∃ ts, tokenize text = .ok ts ∧
      List.Forall₂ (fun line t => tokenizeLine line = .ok t ∧ t.line = line) (lines text) ts ∧
      ∃ cs, ts.mapM (validate schema) = .ok cs ∧ Predicate.ofComparisons cs = p) ∧
    (∀ e, compile schema text = .error e → e.fault = .malformed → tokenize text = .error e) ∧
    (∀ e, compile schema text = .error e → e.fault ≠ .malformed →
      ∃ i, FailsAt (compileLine schema) text i e ∧
        ∀ line ∈ (lines text).take (i + 1), ∃ t, tokenizeLine line = .ok t) ∧
    ∀ e, tokenize text = .error e → ∃ i, FailsAt tokenizeLine text i e ∧
      (FailsAt (compileLine schema) text i e ∧ compile schema text = .error e ∨
        ∃ j < i, ∃ e', FailsAt (compileLine schema) text j e' ∧
          compile schema text = .error e' ∧
          ∃ t, tokenizeLine e'.line = .ok t ∧ validate schema t = .error e') := by
  refine ⟨fun p h => ?_, fun e h hfault => ?_, fun e h hfault => ?_, fun e h => ?_⟩
  · obtain ⟨ts, hts, hp⟩ := compile_eq_ok_iff_tokenize.mp h
    exact ⟨ts, hts, forall₂_of_tokenize hts, hp⟩
  · obtain ⟨i, hi⟩ := compile_eq_error_iff_failsAt.mp h
    refine tokenize_eq_error_iff.mpr ⟨i, ?_, hi.line, ?_⟩
    · exact fun line hline => exists_tokenizeLine_of_compileLine (hi.front line hline)
    · exact tokenizeLine_of_compileLine_malformed hi.rejected hfault
  · obtain ⟨i, hi⟩ := compile_eq_error_iff_failsAt.mp h
    exact ⟨i, hi, fun line hline => hi.exists_tokenizeLine hfault hline⟩
  · obtain ⟨i, hi⟩ := tokenize_eq_error_iff.mp h
    refine ⟨i, hi, ?_⟩
    rcases failsAt_compileLine_of_failsAt_tokenizeLine schema hi with hsame | ⟨j, hj, e', he', ht⟩
    · exact .inl ⟨hsame, compile_eq_error_iff_failsAt.mpr ⟨i, hsame⟩⟩
    · exact .inr ⟨j, hj, e', he', compile_eq_error_iff_failsAt.mpr ⟨j, he'⟩, ht⟩

/-- A line on an undeclared field in front of a malformed one, each of the two lines
    alone, and neither of them. -/
theorem tokenize_compile_on_unknown_field :
    let mixed := "price > 1\nrating >= 4\nprice 100"
    let e : RuleError := ⟨"price 100", .malformed⟩
    let e' : RuleError := ⟨"rating >= 4", .unknownField "rating"⟩
    (∃ p ts, compile Schema.catalog "price > 1" = .ok p ∧ tokenize "price > 1" = .ok ts) ∧
    (compile Schema.catalog "price > 1\nprice 100" = .error e ∧ e.fault = .malformed ∧
      tokenize "price > 1\nprice 100" = .error e) ∧
    (compile Schema.catalog mixed = .error e' ∧ e'.fault ≠ .malformed ∧
      ∃ i, FailsAt (compileLine Schema.catalog) mixed i e' ∧
        ∀ line ∈ (lines mixed).take (i + 1), ∃ t, tokenizeLine line = .ok t) ∧
    tokenize mixed = .error e ∧ ∃ i j, j < i ∧ FailsAt tokenizeLine mixed i e ∧
      FailsAt (compileLine Schema.catalog) mixed j e' := by
  intro mixed e e'
  have hvalid : (compile Schema.catalog "price > 1").isOk = true := by decide +kernel
  have hmalformed : compile Schema.catalog "price > 1\nprice 100" = .error e := by decide +kernel
  have hunknown : compile Schema.catalog mixed = .error e' := by decide +kernel
  have htokenize : tokenize mixed = .error e := by decide +kernel
  have hfault : e'.fault ≠ .malformed := by decide
  refine ⟨?_, ⟨hmalformed, rfl, (tokenize_compile _ _).2.1 e hmalformed rfl⟩,
    ⟨hunknown, hfault, (tokenize_compile _ _).2.2.1 e' hunknown hfault⟩, htokenize, ?_⟩
  · obtain ⟨p, hp⟩ := Outcome.exists_eq_ok_of_isOk hvalid
    obtain ⟨ts, hts, -⟩ := (tokenize_compile _ _).1 p hp
    exact ⟨p, ts, hp, hts⟩
  · obtain ⟨i, hi, hsame | ⟨j, hj, e'', hfails, hearlier, -⟩⟩ :=
      (tokenize_compile Schema.catalog mixed).2.2.2 e htokenize
    · rw [hunknown] at hsame
      exact absurd (Except.error.inj hsame.2) (by decide)
    · rw [hunknown] at hearlier
      cases Except.error.inj hearlier
      exact ⟨i, j, hj, hi, hfails⟩

end Rule

end ProductSegments
