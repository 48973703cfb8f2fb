import ProductSegments.Operator
import ProductSegments.Proofs.Rule.Lines
import ProductSegments.Proofs.Text.Span
import ProductSegments.Rule.Tokens

/-! # Writing rule lines

  The field and the literal of a tokenized line are lines themselves, the field
  without any operator character and the literal without all but `!`. Any two
  such texts can be written as a rule with any operator between them:

  - `IsField` and `IsLiteral` are the two conditions.
  - `splitAtOperator_eq_iff`: how a line is split.
  - `isField_of_tokenizeLine` and `isLiteral_of_tokenizeLine`: tokens meet them.
  - `tokenizeLine_of_trimmed`: blanks around a line do not change its tokens.
  - `writeLine_inj`: what a line is written from can be told from the line.
  - `tokenizeLine_writeLine`: a written rule splits into what it was written from.
-/

namespace ProductSegments

namespace Rule

/-- A text that can stand in front of an operator. -/
structure IsField (field : String) : Prop extends IsLine field where
  /-- There is no operator character in it. -/
  noOperator : ∀ c ∈ field.toList, isOperatorChar c = false

/-- A text that can stand behind an operator. It may start with `!`. -/
structure IsLiteral (literal : String) : Prop extends IsLine literal where
  /-- There is none of the characters in it that split a rule. -/
  noSplit : ∀ c ∈ literal.toList, isSplitChar c = false

theorem isField_iff {field : String} :
    IsField field ↔ IsLine field ∧ field.toList.all (!isOperatorChar ·) = true := by
  simp only [List.all_eq_true, Bool.not_eq_true']
  constructor
  · intro h
    exact ⟨h.toIsLine, h.noOperator⟩
  · intro ⟨hline, hnone⟩
    exact ⟨hline, hnone⟩

instance (field : String) : Decidable (IsField field) := decidable_of_iff' _ isField_iff

variable {line field literal : String} {op : Operator} {t : Tokens}

/-! ### Splitting a line -/

/-- A line has one decomposition into what holds no operator character, a run of
    operator characters and what does not go on with one; without an operator
    nothing stands behind it. -/
theorem splitAtOperator_eq_iff {cs before operator after : List Char} :
    splitAtOperator cs = (before, operator, after) ↔
      cs = before ++ operator ++ after ∧ (∀ c ∈ before, isOperatorChar c = false) ∧
      (∀ c ∈ operator, isOperatorChar c = true) ∧ Text.Stops isOperatorChar after ∧
      (operator = [] → after = []) := by
  constructor
  · intro h
    unfold splitAtOperator at h
    obtain ⟨rfl, rfl, rfl⟩ := h
    refine ⟨?_, ?_, ?_, Text.stops_dropWhile _ _, ?_⟩
    · rw [List.append_assoc, List.takeWhile_append_dropWhile, List.takeWhile_append_dropWhile]
    · intro c hc
      simpa using List.mem_takeWhile_imp hc
    · intro c hc
      exact List.mem_takeWhile_imp hc
    · -- the row in front stops at an operator character or at the end of the line
      intro hnil
      cases hrest : cs.dropWhile (!isOperatorChar ·) with
      | nil => rfl
      | cons c rest =>
        have hc : (!isOperatorChar c) = false :=
          Text.stops_dropWhile (!isOperatorChar ·) cs c (by rw [hrest]; rfl)
        have hop : isOperatorChar c = true := by simpa using hc
        simp [hrest, hop] at hnil
  · intro ⟨hcs, hbefore, hoperator, hafter, hnone⟩
    have hrow : ∀ c ∈ before, (!isOperatorChar c) = true := by
      intro c hc
      simp [hbefore c hc]
    have hstop : Text.Stops (!isOperatorChar ·) (operator ++ after) := by
      cases operator with
      | nil => simp [hnone rfl, Text.stops_nil]
      | cons c rest => exact Text.stops_cons (by simp [hoperator c List.mem_cons_self])
    simp only [splitAtOperator]
    rw [hcs, List.append_assoc, Text.takeWhile_append_of_stops hrow hstop,
      Text.dropWhile_append_of_stops hrow hstop, Text.takeWhile_append_of_stops hoperator hafter,
      Text.dropWhile_append_of_stops hoperator hafter]

/-! ### The tokens of a line -/

theorem tokenizeLine_eq_ok_iff {before operator after : List Char}
    (hsplit : splitAtOperator line.toList = (before, operator, after)) :
    tokenizeLine line = .ok t ↔
      (Text.trim before ≠ [] ∧ operator ≠ [] ∧ Text.trim after ≠ [] ∧
        ∀ c ∈ Text.trim after, isSplitChar c = false) ∧
      t = ⟨line, String.ofList (Text.trim before), String.ofList operator,
        String.ofList (Text.trim after)⟩ := by
  have hnone : (¬ (Text.trim after).any isSplitChar = true) ↔
      ∀ c ∈ Text.trim after, isSplitChar c = false := by simp
  simp only [tokenizeLine, hsplit, hnone]
  split
  · next hparts =>
    rw [Except.ok.injEq, eq_comm]
    exact ⟨fun h => ⟨hparts, h⟩, fun h => h.2⟩
  · next hparts =>
    constructor
    · intro h
      cases h
    · intro ⟨h, _⟩
      exact absurd h hparts

/-- What a line is split into stands in it. -/
theorem mem_of_mem_splitAtOperator {cs before operator after : List Char} {c : Char}
    (hsplit : splitAtOperator cs = (before, operator, after)) (h : c ∈ before ∨ c ∈ after) :
    c ∈ cs := by
  obtain ⟨rfl, -⟩ := splitAtOperator_eq_iff.mp hsplit
  rcases h with h | h <;> simp [h]

theorem isField_of_tokenizeLine (hline : IsLine line) (h : tokenizeLine line = .ok t) :
    IsField t.field := by
  obtain ⟨before, operator, after, hsplit⟩ :
    ∃ before operator after, splitAtOperator line.toList = (before, operator, after) :=
    ⟨_, _, _, rfl⟩
  obtain ⟨⟨hne, -, -, -⟩, rfl⟩ := (tokenizeLine_eq_ok_iff hsplit).mp h
  have hlf : '\n' ∉ before := fun hc =>
    hline.oneLine (mem_of_mem_splitAtOperator hsplit (.inl hc))
  refine ⟨isLine_ofList_trim hne hlf, ?_⟩
  intro c hc
  rw [String.toList_ofList] at hc
  obtain ⟨-, hbefore, -⟩ := splitAtOperator_eq_iff.mp hsplit
  exact hbefore c (Text.mem_of_mem_trim hc)

theorem isLiteral_of_tokenizeLine (hline : IsLine line) (h : tokenizeLine line = .ok t) :
    IsLiteral t.literal := by
  obtain ⟨before, operator, after, hsplit⟩ :
    ∃ before operator after, splitAtOperator line.toList = (before, operator, after) :=
    ⟨_, _, _, rfl⟩
  obtain ⟨⟨-, -, hne, hplain⟩, rfl⟩ := (tokenizeLine_eq_ok_iff hsplit).mp h
  have hlf : '\n' ∉ after := fun hc =>
    hline.oneLine (mem_of_mem_splitAtOperator hsplit (.inr hc))
  refine ⟨isLine_ofList_trim hne hlf, ?_⟩
  intro c hc
  rw [String.toList_ofList] at hc
  exact hplain c hc

/-! ### Blanks around a line -/

theorem isOperatorChar_of_isBlank {c : Char} (h : Text.isBlank c = true) :
    isOperatorChar c = false := by
  rw [Bool.eq_false_iff]
  intro hop
  simp only [isOperatorChar, Bool.or_eq_true, beq_iff_eq] at hop
  rcases hop with ((rfl | rfl) | rfl) | rfl <;> exact absurd h (by decide)

/-- Around a line with an operator, blanks go to the parts at its ends. -/
theorem splitAtOperator_around {front cs back before operator after : List Char}
    (hfront : Text.AllBlank front) (hback : Text.AllBlank back)
    (hsplit : splitAtOperator cs = (before, operator, after)) (hne : operator ≠ []) :
    splitAtOperator (front ++ cs ++ back) = (front ++ before, operator, after ++ back) := by
  obtain ⟨rfl, hbefore, hoperator, hafter, -⟩ := splitAtOperator_eq_iff.mp hsplit
  rw [splitAtOperator_eq_iff]
  refine ⟨by simp only [List.append_assoc], ?_, hoperator, ?_, fun hnil => absurd hnil hne⟩
  · intro c hc
    rcases List.mem_append.mp hc with hc | hc
    · exact isOperatorChar_of_isBlank (hfront c hc)
    · exact hbefore c hc
  · intro c hc
    -- behind an empty literal the blanks come first
    cases after with
    | nil => exact isOperatorChar_of_isBlank (hback c (List.mem_of_mem_head? hc))
    | cons d after => exact hafter c hc

/-- A line has the tokens that it has without the blanks around it. -/
theorem tokenizeLine_of_trimmed (h : tokenizeLine (Text.trimmed line) = .ok t) :
    tokenizeLine line = .ok { t with line := line } := by
  obtain ⟨before, operator, after, hsplit⟩ :
    ∃ before operator after, splitAtOperator (Text.trimmed line).toList = (before, operator, after) :=
    ⟨_, _, _, rfl⟩
  obtain ⟨hparts, rfl⟩ := (tokenizeLine_eq_ok_iff hsplit).mp h
  obtain ⟨front, back, hline, hfront, hback⟩ := Text.exists_blanks_around_trim line.toList
  rw [Text.toList_trimmed] at hsplit
  have hsplit' := splitAtOperator_around hfront hback hsplit hparts.2.1
  rw [← hline] at hsplit'
  have hbefore : Text.trim (front ++ before) = Text.trim before := by
    simpa using Text.trim_around hfront Text.allBlank_nil before
  have hafter : Text.trim (after ++ back) = Text.trim after := by
    simpa using Text.trim_around Text.allBlank_nil hback after
  rw [tokenizeLine_eq_ok_iff hsplit', hbefore, hafter]
  exact ⟨hparts, rfl⟩

/-! ### Written rules -/

/-- The rule line with the given parts. -/
def writeLine (field : String) (op : Operator) (literal : String) : String :=
  field ++ " " ++ op.symbol ++ " " ++ literal

theorem toList_writeLine (field : String) (op : Operator) (literal : String) :
    (writeLine field op literal).toList =
      (field.toList ++ [' ']) ++ (op.symbol.toList ++ ' ' :: literal.toList) := by
  simp [writeLine]

theorem isOperatorChar_of_mem_symbol {c : Char} (h : c ∈ op.symbol.toList) :
    isOperatorChar c = true := by
  have hall : op.symbol.toList.all isOperatorChar = true := by cases op <;> decide
  exact List.all_eq_true.mp hall c h

theorem symbol_toList_ne_nil (op : Operator) : op.symbol.toList ≠ [] := by
  cases op <;> decide

/-- A written rule is split at its operator, which the blanks around it keep
    apart from a literal that starts with `!`. -/
theorem splitAtOperator_writeLine (hfield : ∀ c ∈ field.toList, isOperatorChar c = false) :
    splitAtOperator (writeLine field op literal).toList =
      (field.toList ++ [' '], op.symbol.toList, ' ' :: literal.toList) := by
  have hspace : isOperatorChar ' ' = false := by decide
  rw [splitAtOperator_eq_iff]
  refine ⟨?_, ?_, ?_, Text.stops_cons hspace, ?_⟩
  · simp [toList_writeLine]
  · intro c hc
    rcases List.mem_append.mp hc with hc | hc
    · exact hfield c hc
    · rw [List.mem_singleton.mp hc]
      exact hspace
  · intro c hc
    exact isOperatorChar_of_mem_symbol hc
  · intro hnil
    exact absurd hnil (symbol_toList_ne_nil op)

/-- Written lines are equal in their parts only. The literals may be any texts. -/
theorem writeLine_inj {field' literal' : String} {op' : Operator}
    (hfield : ∀ c ∈ field.toList, isOperatorChar c = false)
    (hfield' : ∀ c ∈ field'.toList, isOperatorChar c = false)
    (h : writeLine field op literal = writeLine field' op' literal') :
    field = field' ∧ op = op' ∧ literal = literal' := by
  have hsplit := @splitAtOperator_writeLine field literal op hfield
  rw [h, splitAtOperator_writeLine hfield', Prod.mk.injEq, Prod.mk.injEq] at hsplit
  obtain ⟨hbefore, hoperator, hafter⟩ := hsplit
  refine ⟨?_, ?_, ?_⟩
  · exact String.toList_inj.mp (List.append_cancel_right hbefore).symm
  · exact Operator.symbol_injective (String.toList_inj.mp hoperator.symm)
  · exact String.toList_inj.mp (List.cons.inj hafter).2.symm

/-- A written rule splits into what it was written from. -/
theorem tokenizeLine_writeLine (hfield : IsField field) (hliteral : IsLiteral literal) :
    tokenizeLine (writeLine field op literal) =
      .ok ⟨writeLine field op literal, field, op.symbol, literal⟩ := by
  have hblank : Text.AllBlank [' '] := by decide
  have hbefore : Text.trim (field.toList ++ [' ']) = field.toList :=
    Text.trim_append_blanks hfield.bare hblank
  have hafter : Text.trim ([' '] ++ literal.toList) = literal.toList :=
    Text.trim_blanks_append hblank hliteral.bare
  rw [tokenizeLine_eq_ok_iff (splitAtOperator_writeLine hfield.noOperator)]
  rw [List.singleton_append] at hafter
  rw [hbefore, hafter]
  refine ⟨⟨?_, symbol_toList_ne_nil op, ?_, hliteral.noSplit⟩, by simp⟩
  · exact hfield.toList_ne_nil
  · exact hliteral.toList_ne_nil

/-- In a rule with `=` the field holds no operator: it would leave the `=` to the
    literal. -/
theorem noOperator_of_tokenizeLine (h : tokenizeLine (writeLine field .eq literal) = .ok t) :
    ∀ c ∈ field.toList, isOperatorChar c = false := by
  obtain ⟨before, operator, after, hsplit⟩ :
    ∃ before operator after, splitAtOperator field.toList = (before, operator, after) :=
    ⟨_, _, _, rfl⟩
  obtain ⟨hcs, hbefore, hoperator, hafter, hend⟩ := splitAtOperator_eq_iff.mp hsplit
  by_cases hnil : operator = []
  · rw [hcs, hnil, hend hnil]
    simpa using hbefore
  · have hstop : Text.Stops isOperatorChar (after ++ [' ']) := by
      cases after with
      | nil => exact Text.stops_cons (by decide)
      | cons c after => exact hafter
    have hline : splitAtOperator (writeLine field .eq literal).toList =
        (before, operator, after ++ [' '] ++ '=' :: ' ' :: literal.toList) := by
      rw [splitAtOperator_eq_iff]
      refine ⟨?_, hbefore, hoperator, ?_, fun h => absurd h hnil⟩
      · rw [toList_writeLine, hcs]
        simp [Operator.symbol]
      · intro c hc
        rw [List.head?_append_of_ne_nil _ (by simp)] at hc
        exact hstop c hc
    obtain ⟨⟨-, -, -, hplain⟩, -⟩ := (tokenizeLine_eq_ok_iff hline).mp h
    have hmem : '=' ∈ Text.trim (after ++ [' '] ++ '=' :: ' ' :: literal.toList) :=
      Text.mem_trim_of_mem (by simp) (by decide)
    exact absurd (hplain '=' hmem) (by decide)

/-- Bare texts on one line that make up a rule with `=` can stand in front of and
    behind any operator. -/
theorem isField_and_isLiteral_of_tokenizeLine (hfield : Text.trimmed field = field)
    (hfieldlf : '\n' ∉ field.toList) (hliteral : Text.trimmed literal = literal)
    (hliterallf : '\n' ∉ literal.toList) (h : tokenizeLine (writeLine field .eq literal) = .ok t) :
    IsField field ∧ IsLiteral literal := by
  have hblank : Text.AllBlank [' '] := by decide
  have hbefore : Text.trim (field.toList ++ [' ']) = field.toList :=
    Text.trim_append_blanks (Text.trimmed_eq_self_iff.mp hfield) hblank
  have hafter : Text.trim (' ' :: literal.toList) = literal.toList :=
    Text.trim_blanks_append hblank (Text.trimmed_eq_self_iff.mp hliteral)
  have hnone := noOperator_of_tokenizeLine h
  obtain ⟨⟨hne, -, hne', hplain⟩, -⟩ :=
    (tokenizeLine_eq_ok_iff (splitAtOperator_writeLine hnone)).mp h
  rw [hbefore] at hne
  rw [hafter] at hne' hplain
  refine ⟨⟨⟨?_, hfield, hfieldlf⟩, hnone⟩, ⟨⟨?_, hliteral, hliterallf⟩, hplain⟩⟩
  · rintro rfl
    exact hne rfl
  · rintro rfl
    exact hne' rfl

theorem isLine_writeLine (hfield : IsField field) (hliteral : IsLiteral literal) :
    IsLine (writeLine field op literal) := by
  have hlist := toList_writeLine field op literal
  refine ⟨?_, ?_, ?_⟩
  · intro h
    have hnil : (writeLine field op literal).toList = [] := String.toList_eq_nil_iff.mpr h
    rw [hlist] at hnil
    simp at hnil
  · -- the line starts with the field and ends with the literal, both of them bare
    rw [Text.trimmed_eq_self_iff, hlist]
    have hbare := Text.bare_append hfield.bare hfield.toList_ne_nil hliteral.bare
      hliteral.toList_ne_nil ([' '] ++ op.symbol.toList ++ [' '])
    simpa using hbare
  · intro hlf
    rw [hlist] at hlf
    have hsymbol : '\n' ∉ op.symbol.toList := by
      intro hc
      exact absurd (isOperatorChar_of_mem_symbol hc) (by decide)
    simp [hfield.oneLine, hliteral.oneLine, hsymbol] at hlf

end Rule

end ProductSegments
