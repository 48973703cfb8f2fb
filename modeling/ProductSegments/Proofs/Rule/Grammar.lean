import ProductSegments.Proofs.Rule.Tokens

/-! # The grammar of rule lines

  A rule line is a part in front of its first operator character, a run of
  operator characters and a part behind the run. Something other than blanks is
  written in front and behind, and behind the run no character stands that is in
  every operator.

  - `LineParts` are three such parts.
  - `LineParts.text_injective`: a line has these parts in one way only.
  - `LineParts.tokenizeLine_text`: the line of the parts splits into them, trimmed.
  - `tokenizeLine_eq_iff_parts`: no other line splits.
-/

namespace ProductSegments

namespace Rule

/-- The parts of a rule line, with the blanks around them. -/
@[ext] structure LineParts where
  /-- What stands in front of the operator. -/
  before : String
  /-- The run of operator characters. -/
  operator : String
  /-- What stands behind the operator. -/
  after : String
  /-- The operator is the first one on the line. -/
  noOperator_before : ∀ c ∈ before.toList, isOperatorChar c = false
  /-- There is a field. -/
  notBlank_before : ¬ Text.AllBlank before.toList
  /-- There is an operator. -/
  nonempty_operator : operator ≠ ""
  /-- It is made of operator characters. -/
  isOperatorChar_operator : ∀ c ∈ operator.toList, isOperatorChar c = true
  /-- It does not go on behind its run. -/
  stops_after : Text.Stops isOperatorChar after.toList
  /-- There is a literal. -/
  notBlank_after : ¬ Text.AllBlank after.toList
  /-- There is no second operator. -/
  noSplit_after : ∀ c ∈ after.toList, isSplitChar c = false

namespace LineParts

variable (p : LineParts)

/-- The parts one after the other. -/
def text : String := p.before ++ p.operator ++ p.after

/-- What a line of the parts says. -/
def tokens : Tokens := ⟨p.text, Text.trimmed p.before, p.operator, Text.trimmed p.after⟩

theorem splitAtOperator_text :
    splitAtOperator p.text.toList = (p.before.toList, p.operator.toList, p.after.toList) := by
  rw [splitAtOperator_eq_iff]
  refine ⟨by simp [text], p.noOperator_before, p.isOperatorChar_operator, p.stops_after, ?_⟩
  intro hnil
  exact absurd (String.toList_eq_nil_iff.mp hnil) p.nonempty_operator

/-- Two different triples of parts make up different lines. -/
theorem text_injective : Function.Injective text := by
  intro p q h
  -- both are what the line is split into
  have hsplit := p.splitAtOperator_text
  rw [h, q.splitAtOperator_text, Prod.mk.injEq, Prod.mk.injEq] at hsplit
  obtain ⟨hbefore, hoperator, hafter⟩ := hsplit
  ext1
  · exact (String.toList_inj.mp hbefore).symm
  · exact (String.toList_inj.mp hoperator).symm
  · exact (String.toList_inj.mp hafter).symm

/-- A line of parts splits into these, trimmed. -/
theorem tokenizeLine_text : tokenizeLine p.text = .ok p.tokens := by
  rw [tokenizeLine_eq_ok_iff p.splitAtOperator_text]
  refine ⟨⟨?_, ?_, ?_, ?_⟩, ?_⟩
  · rw [Ne, Text.trim_eq_nil_iff]
    exact p.notBlank_before
  · rw [Ne, String.toList_eq_nil_iff]
    exact p.nonempty_operator
  · rw [Ne, Text.trim_eq_nil_iff]
    exact p.notBlank_after
  · exact fun c hc => p.noSplit_after c (Text.mem_of_mem_trim hc)
  · simp [tokens, Text.trimmed]

end LineParts

theorem isBlank_eq_false_of_isSplitChar {c : Char} (h : isSplitChar c = true) :
    Text.isBlank c = false := by
  simp only [isSplitChar, Bool.or_eq_true, beq_iff_eq] at h
  rcases h with (rfl | rfl) | rfl <;> decide

/-- What splits into tokens is a line of parts. -/
theorem exists_parts_of_tokenizeLine {line : String} {t : Tokens} (h : tokenizeLine line = .ok t) :
    ∃ p : LineParts, p.text = line ∧ p.tokens = t := by
  obtain ⟨before, operator, after, hsplit⟩ :
    ∃ before operator after, splitAtOperator line.toList = (before, operator, after) :=
    ⟨_, _, _, rfl⟩
  obtain ⟨⟨hfield, hoperator, hliteral, hplain⟩, rfl⟩ := (tokenizeLine_eq_ok_iff hsplit).mp h
  obtain ⟨hline, hbefore, hrun, hafter, -⟩ := splitAtOperator_eq_iff.mp hsplit
  -- trimming takes off blanks only, and no blank splits a line
  have hnone : ∀ c ∈ after, isSplitChar c = false := by
    intro c hc
    rw [Bool.eq_false_iff]
    intro hsplits
    have hmem := Text.mem_trim_of_mem hc (isBlank_eq_false_of_isSplitChar hsplits)
    rw [hplain c hmem] at hsplits
    cases hsplits
  have hwhole : String.ofList before ++ String.ofList operator ++ String.ofList after = line := by
    rw [← String.toList_inj, hline]
    simp
  let p : LineParts := {
    before := String.ofList before
    operator := String.ofList operator
    after := String.ofList after
    noOperator_before := by simpa using hbefore
    notBlank_before := by simpa [Text.trim_eq_nil_iff] using hfield
    nonempty_operator := by simpa using hoperator
    isOperatorChar_operator := by simpa using hrun
    stops_after := by simpa using hafter
    notBlank_after := by simpa [Text.trim_eq_nil_iff] using hliteral
    noSplit_after := by simpa using hnone }
  refine ⟨p, hwhole, ?_⟩
  simp [p, LineParts.tokens, LineParts.text, Text.trimmed, hwhole]

/-- The tokens of a line hold the line as it was given. -/
theorem line_of_tokenizeLine {line : String} {t : Tokens} (h : tokenizeLine line = .ok t) :
    t.line = line := by
  obtain ⟨p, rfl, rfl⟩ := exists_parts_of_tokenizeLine h
  rfl

/-- A line that does not split is reported as it was given. -/
theorem eq_malformed_of_tokenizeLine {line : String} {e : RuleError}
    (h : tokenizeLine line = .error e) : e = ⟨line, .malformed⟩ := by
  simp only [tokenizeLine] at h
  split at h
  · cases h
  · cases h
    rfl

/-- **Grammar of rule lines.** A line splits into tokens exactly when it is made
    of a field part, an operator run and a literal part. It then is so in one way,
    and its tokens are the run and the two other parts trimmed. Every other line is
    malformed, and the error holds it as it was given. -/
theorem tokenizeLine_eq_iff_parts (line : String) :
    (∀ t, tokenizeLine line = .ok t ↔ ∃ p : LineParts, p.text = line ∧ p.tokens = t) ∧
    (∀ p q : LineParts, p.text = line → q.text = line → p = q) ∧
    (∀ e, tokenizeLine line = .error e ↔
      (¬ ∃ p : LineParts, p.text = line) ∧ e = ⟨line, .malformed⟩) := by
  refine ⟨?_, ?_, ?_⟩
  · intro t
    constructor
    · exact exists_parts_of_tokenizeLine
    · rintro ⟨p, rfl, rfl⟩
      exact p.tokenizeLine_text
  · intro p q hp hq
    exact LineParts.text_injective (hp.trans hq.symm)
  · intro e
    constructor
    · intro h
      refine ⟨?_, ?_⟩
      · rintro ⟨p, rfl⟩
        rw [p.tokenizeLine_text] at h
        cases h
      · exact eq_malformed_of_tokenizeLine h
    · rintro ⟨hnone, rfl⟩
      cases h : tokenizeLine line with
      | ok t =>
        obtain ⟨p, hp, -⟩ := exists_parts_of_tokenizeLine h
        exact absurd ⟨p, hp⟩ hnone
      | error e => rw [eq_malformed_of_tokenizeLine h]

end Rule

end ProductSegments
