import ProductSegments.Proofs.Rule.Compilation
import ProductSegments.Proofs.Rule.Grammar
import ProductSegments.Schema.Declaration

/-! # Blanks in rule lines

  The parts of a rule may be written with any spaces and tabs around them, or with
  none: what the rule compiles to, or what is wrong with it, stays the same. There
  is one exception. An operator is the longest run of operator characters, so a
  literal that starts with `!` has to be kept apart from it.

  - `Spacing` is what is put around the parts, and `Spacing.line` the line.
  - `Spacing.tokenizeLine_line`: the line splits into the parts again.
  - `compile_spaced`: it compiles like the line with single spaces.
  - `compile_run_on_ne_ok`: with the literal run on to the operator it does not
    compile.
-/

namespace ProductSegments

namespace Rule

/-- Spaces and tabs around the parts of a rule line. Any of the four may be empty. -/
structure Spacing where
  /-- In front of the field. -/
  front : String
  /-- Between the field and the operator. -/
  afterField : String
  /-- Between the operator and the literal. -/
  beforeLiteral : String
  /-- Behind the literal. -/
  back : String
  /-- There is nothing else. -/
  spacesAndTabs : ∀ s ∈ [front, afterField, beforeLiteral, back],
    ∀ c ∈ s.toList, c = ' ' ∨ c = '\t'

namespace Spacing

variable (s : Spacing) {schema : Schema} {field literal : String} {op : Operator}

/-- The rule line with the given parts, spaced out. -/
def line (field : String) (op : Operator) (literal : String) : String :=
  s.front ++ field ++ s.afterField ++ op.symbol ++ s.beforeLiteral ++ literal ++ s.back

/-- The operator run ends in front of the literal. -/
def Separates (literal : String) : Prop :=
  s.beforeLiteral ≠ "" ∨ literal.toList.head? ≠ some '!'

/-- The same without what stands around the line. -/
def inner : Spacing where
  front := ""
  afterField := s.afterField
  beforeLiteral := s.beforeLiteral
  back := ""
  spacesAndTabs := by
    have hblanks := s.spacesAndTabs
    simp only [List.forall_mem_cons] at hblanks ⊢
    obtain ⟨-, hafter, hbefore, -, hnil⟩ := hblanks
    exact ⟨by simp, hafter, hbefore, by simp, hnil⟩

/-! ### Blanks -/

theorem allBlank {t : String} (h : t ∈ [s.front, s.afterField, s.beforeLiteral, s.back]) :
    Text.AllBlank t.toList := by
  intro c hc
  rcases s.spacesAndTabs t h c hc with rfl | rfl <;> decide

theorem lf_not_mem {t : String} (h : t ∈ [s.front, s.afterField, s.beforeLiteral, s.back]) :
    '\n' ∉ t.toList := by
  intro hc
  rcases s.spacesAndTabs t h _ hc with hlf | hlf <;> exact absurd hlf (by decide)

theorem isOperatorChar_eq_false {t : String}
    (h : t ∈ [s.front, s.afterField, s.beforeLiteral, s.back]) :
    ∀ c ∈ t.toList, isOperatorChar c = false :=
  fun c hc => isOperatorChar_of_isBlank (s.allBlank h c hc)

theorem isSplitChar_eq_false {t : String}
    (h : t ∈ [s.front, s.afterField, s.beforeLiteral, s.back]) :
    ∀ c ∈ t.toList, isSplitChar c = false := by
  intro c hc
  rw [Bool.eq_false_iff]
  intro hsplit
  have hblank := isBlank_eq_false_of_isSplitChar hsplit
  rw [s.allBlank h c hc] at hblank
  cases hblank

/-! ### The line -/

theorem toList_line : (s.line field op literal).toList =
    s.front.toList ++ (s.inner.line field op literal).toList ++ s.back.toList := by
  simp [line, inner]

theorem isLine_inner_line (hfield : IsField field) (hliteral : IsLiteral literal) :
    IsLine (s.inner.line field op literal) := by
  have hlist : (s.inner.line field op literal).toList = field.toList ++
      (s.afterField.toList ++ op.symbol.toList ++ s.beforeLiteral.toList) ++ literal.toList := by
    simp [line, inner]
  refine ⟨?_, ?_, ?_⟩
  · intro hnil
    rw [hnil] at hlist
    simp [hfield.toList_ne_nil] at hlist
  · -- the line starts with the field and ends with the literal, both of them bare
    rw [Text.trimmed_eq_self_iff, hlist]
    exact Text.bare_append hfield.bare hfield.toList_ne_nil hliteral.bare
      hliteral.toList_ne_nil _
  · have hsymbol : '\n' ∉ op.symbol.toList := fun hc =>
      absurd (isOperatorChar_of_mem_symbol hc) (by decide)
    have hafter := s.lf_not_mem (t := s.afterField) (by simp)
    have hbefore := s.lf_not_mem (t := s.beforeLiteral) (by simp)
    rw [hlist]
    simp [hfield.oneLine, hliteral.oneLine, hsymbol, hafter, hbefore]

/-- What stands around the line is trimmed off. -/
theorem lines_line (hfield : IsField field) (hliteral : IsLiteral literal) :
    lines (s.line field op literal) = [s.inner.line field op literal] := by
  have hinner : IsLine (s.inner.line field op literal) := s.isLine_inner_line hfield hliteral
  have htrim : Text.trim (s.line field op literal).toList =
      (s.inner.line field op literal).toList := by
    rw [toList_line]
    exact Text.trim_blanks_around (s.allBlank (by simp)) hinner.bare (s.allBlank (by simp))
  have hlf : '\n' ∉ (s.line field op literal).toList := by
    rw [toList_line]
    simp [hinner.oneLine, s.lf_not_mem (t := s.front) (by simp),
      s.lf_not_mem (t := s.back) (by simp)]
  rw [lines_of_not_mem hlf (by rw [htrim]; exact hinner.toList_ne_nil), Text.trimmed, htrim,
    String.ofList_toList]

/-! ### Its parts -/

/-- What stands behind the operator does not go on with it. -/
theorem stops_after (hliteral : IsLiteral literal) (hseparates : s.Separates literal) :
    Text.Stops isOperatorChar (s.beforeLiteral ++ literal ++ s.back).toList := by
  simp only [String.toList_append]
  cases hgap : s.beforeLiteral.toList with
  | cons c gap =>
    have hblank : Text.isBlank c = true :=
      s.allBlank (t := s.beforeLiteral) (by simp) c (by simp [hgap])
    exact Text.stops_cons (isOperatorChar_of_isBlank hblank)
  | nil =>
    -- without a gap the literal comes first, and it may hold no other operator character
    have hhead : literal.toList.head? ≠ some '!' := by
      refine hseparates.resolve_left ?_
      intro hne
      exact hne (String.toList_eq_nil_iff.mp hgap)
    cases hlist : literal.toList with
    | nil => exact absurd hlist hliteral.toList_ne_nil
    | cons c cs =>
      refine Text.stops_cons ?_
      have hsplit : isSplitChar c = false := hliteral.noSplit c (by simp [hlist])
      have hc : c ≠ '!' := by simpa [hlist] using hhead
      simp only [isSplitChar, Bool.or_eq_false_iff, beq_eq_false_iff_ne] at hsplit
      simp [isOperatorChar, hsplit, hc]

theorem trim_before (hfield : IsField field) :
    Text.trim (s.front ++ field ++ s.afterField).toList = field.toList := by
  simpa using Text.trim_blanks_around (s.allBlank (by simp)) hfield.bare (s.allBlank (by simp))

theorem trim_after (hliteral : IsLiteral literal) :
    Text.trim (s.beforeLiteral ++ literal ++ s.back).toList = literal.toList := by
  simpa using Text.trim_blanks_around (s.allBlank (by simp)) hliteral.bare (s.allBlank (by simp))

/-- The parts of a spaced out line. -/
def parts (hfield : IsField field) (op : Operator) (hliteral : IsLiteral literal)
    (hseparates : s.Separates literal) : LineParts where
  before := s.front ++ field ++ s.afterField
  operator := op.symbol
  after := s.beforeLiteral ++ literal ++ s.back
  noOperator_before := by
    have hfront := s.isOperatorChar_eq_false (t := s.front) (by simp)
    have hafter := s.isOperatorChar_eq_false (t := s.afterField) (by simp)
    simpa [or_imp, forall_and] using ⟨hfront, hfield.noOperator, hafter⟩
  notBlank_before := by
    rw [← Text.trim_eq_nil_iff, s.trim_before hfield]
    exact hfield.toList_ne_nil
  nonempty_operator := by
    rw [Ne, ← String.toList_eq_nil_iff]
    exact symbol_toList_ne_nil op
  isOperatorChar_operator := fun _ hc => isOperatorChar_of_mem_symbol hc
  stops_after := s.stops_after hliteral hseparates
  notBlank_after := by
    rw [← Text.trim_eq_nil_iff, s.trim_after hliteral]
    exact hliteral.toList_ne_nil
  noSplit_after := by
    have hgap := s.isSplitChar_eq_false (t := s.beforeLiteral) (by simp)
    have hback := s.isSplitChar_eq_false (t := s.back) (by simp)
    simpa [or_imp, forall_and] using ⟨hgap, hliteral.noSplit, hback⟩

/-- A spaced out line splits into the parts that it was written from. -/
theorem tokenizeLine_line (hfield : IsField field) (hliteral : IsLiteral literal)
    (hseparates : s.Separates literal) :
    tokenizeLine (s.line field op literal) =
      .ok ⟨s.line field op literal, field, op.symbol, literal⟩ := by
  have htext : (s.parts hfield op hliteral hseparates).text = s.line field op literal := by
    simp [parts, LineParts.text, line, String.append_assoc]
  have htokens : (s.parts hfield op hliteral hseparates).tokens =
      ⟨s.line field op literal, field, op.symbol, literal⟩ := by
    unfold LineParts.tokens
    rw [htext]
    simp only [parts, Text.trimmed, s.trim_before hfield, s.trim_after hliteral,
      String.ofList_toList]
  rw [← htokens, ← htext]
  exact LineParts.tokenizeLine_text _

end Spacing

variable {schema : Schema} {field literal line : String} {op : Operator} {t : Tokens}

/-- What a line compiles to as a text, or what is wrong with it, depends on its
    tokens only. -/
theorem compile_of_tokenizeLine (hline : IsLine line) (ht : tokenizeLine line = .ok t) :
    (compile schema line).mapError RuleError.fault =
      (comparison? schema t).map fun c => Predicate.ofComparisons [c] := by
  rw [compile_of_isLine hline, compileLine, ht]
  show ((validate schema t).map _).mapError _ = _
  unfold validate
  cases comparison? schema t <;> rfl

/-- **Blanks are insignificant.** A rule compiles to the same predicate, or has the
    same fault, with any spaces and tabs around its parts, as long as a literal that
    starts with `!` does not run on to the operator. -/
theorem compile_spaced (schema : Schema) (s : Spacing) (field : String) (op : Operator)
    (literal : String) (hfield : IsField field) (hliteral : IsLiteral literal)
    (hseparates : s.Separates literal) :
    (compile schema (s.line field op literal)).mapError RuleError.fault =
      (compile schema (writeLine field op literal)).mapError RuleError.fault := by
  have hinner : IsLine (s.inner.line field op literal) := s.isLine_inner_line hfield hliteral
  have hcompile : compile schema (s.line field op literal) =
      compile schema (s.inner.line field op literal) := by
    unfold compile comparisons
    rw [s.lines_line hfield hliteral, lines_of_isLine hinner]
  rw [hcompile,
    compile_of_tokenizeLine hinner (s.inner.tokenizeLine_line hfield hliteral hseparates),
    compile_of_tokenizeLine (isLine_writeLine hfield hliteral)
      (tokenizeLine_writeLine hfield hliteral)]
  -- the two lines differ, and the check does not look at them
  rfl

/-- A literal that starts with `!`, kept apart by a tab, behind an operator that
    holds one itself. -/
theorem compile_spaced_by_tab :
    let s : Spacing := ⟨" \t", "", "\t", "  ", by simp⟩
    IsField "title" ∧ IsLiteral "!sale" ∧ s.Separates "!sale" ∧
      s.line "title" .ne "!sale" = " \ttitle!=\t!sale  " ∧
      (compile Schema.catalog " \ttitle!=\t!sale  ").mapError RuleError.fault =
        (compile Schema.catalog "title != !sale").mapError RuleError.fault := by
  intro s
  have hfield : IsField "title" := ⟨⟨by decide, by decide, by decide⟩, by simp [isOperatorChar]⟩
  have hliteral : IsLiteral "!sale" :=
    ⟨⟨by decide, by decide, by decide⟩, by simp [isSplitChar]⟩
  have hseparates : s.Separates "!sale" := .inl (by decide)
  exact ⟨hfield, hliteral, hseparates, by decide,
    compile_spaced Schema.catalog s "title" .ne "!sale" hfield hliteral hseparates⟩

/-! ### Literals run on to the operator -/

/-- No operator has a `!` behind another operator. -/
theorem symbol_toList_ne_append (op op' : Operator) (cs : List Char) :
    op'.symbol.toList ≠ op.symbol.toList ++ '!' :: cs := by
  cases op <;> cases op' <;> simp [Operator.symbol]

/-- Without anything in between, a `!` at the start of a literal goes to the
    operator, and the rule does not compile. -/
theorem compile_run_on_ne_ok (schema : Schema) (s : Spacing) (hfield : IsField field)
    (hliteral : IsLiteral literal) (hrun : ¬ s.Separates literal) (p : Predicate) :
    compile schema (s.line field op literal) ≠ .ok p := by
  intro h
  obtain ⟨hgap, hhead⟩ : s.beforeLiteral = "" ∧ literal.toList.head? = some '!' := by
    simpa [Spacing.Separates] using hrun
  obtain ⟨cs, hcs⟩ : ∃ cs, literal.toList = '!' :: cs := List.head?_eq_some_iff.mp hhead
  have hsplit : splitAtOperator (s.inner.line field op literal).toList =
      (field.toList ++ s.afterField.toList,
        op.symbol.toList ++ '!' :: cs.takeWhile isOperatorChar, cs.dropWhile isOperatorChar) := by
    have hafter := s.isOperatorChar_eq_false (t := s.afterField) (by simp)
    rw [splitAtOperator_eq_iff]
    refine ⟨?_, ?_, ?_, Text.stops_dropWhile _ _, by simp⟩
    · simp [Spacing.line, Spacing.inner, hgap, hcs]
    · simpa [or_imp, forall_and] using ⟨hfield.noOperator, hafter⟩
    · intro c hc
      rcases List.mem_append.mp hc with hc | hc
      · exact isOperatorChar_of_mem_symbol hc
      · rcases List.mem_cons.mp hc with rfl | hc
        · decide
        · exact List.mem_takeWhile_imp hc
  -- the line would compile only if the whole run were one of the operators
  obtain ⟨_, hlines, -⟩ := compile_eq_ok_iff.mp h
  rw [s.lines_line hfield hliteral] at hlines
  obtain ⟨c, _, hc, -, -⟩ := List.forall₂_cons_left_iff.mp hlines
  obtain ⟨t, ht, hcomparison⟩ := compileLine_eq_ok_iff.mp hc
  obtain ⟨_, -, -, hop, -⟩ := comparison?_eq_ok_iff.mp hcomparison
  obtain ⟨-, rfl⟩ := (tokenizeLine_eq_ok_iff hsplit).mp ht
  refine symbol_toList_ne_append op c.op (cs.takeWhile isOperatorChar) ?_
  rw [hop, String.toList_ofList]

/-- So a rule that compiles with a space in front of its literal may be rejected
    without. -/
theorem compile_run_on_exclamation :
    let s : Spacing := ⟨"", "", "", "", by simp⟩
    IsField "title" ∧ IsLiteral "!sale" ∧ s.line "title" .eq "!sale" = "title=!sale" ∧
      compile Schema.catalog "title=!sale" =
        .error ⟨"title=!sale", .unsupportedOperator "=!"⟩ ∧
      (∃ p, compile Schema.catalog "title = !sale" = .ok p) ∧
      (compile Schema.catalog (s.line "title" .eq "!sale")).mapError RuleError.fault ≠
        (compile Schema.catalog (writeLine "title" .eq "!sale")).mapError RuleError.fault := by
  intro s
  have hrejected : compile Schema.catalog "title=!sale" =
      .error ⟨"title=!sale", .unsupportedOperator "=!"⟩ := by decide +kernel
  have hok : (compile Schema.catalog "title = !sale").isOk = true := by decide +kernel
  obtain ⟨p, hp⟩ := Outcome.exists_eq_ok_of_isOk hok
  have hline : s.line "title" .eq "!sale" = "title=!sale" := by decide
  have hwritten : writeLine "title" .eq "!sale" = "title = !sale" := by decide
  refine ⟨⟨⟨by decide, by decide, by decide⟩, by simp [isOperatorChar]⟩,
    ⟨⟨by decide, by decide, by decide⟩, by simp [isSplitChar]⟩, hline, hrejected, ⟨p, hp⟩, ?_⟩
  rw [hline, hwritten, hrejected, hp]
  intro h
  cases h

end Rule

end ProductSegments
