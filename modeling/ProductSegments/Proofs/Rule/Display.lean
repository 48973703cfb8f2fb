import ProductSegments.Proofs.Rule.Numbers

/-! # Displayed predicates

  The text of a predicate escapes nothing: a string may hold a quote, the word that
  joins clauses or what looks like another clause. It determines the predicate all
  the same, because no literal holds a character that an operator is recognised by,
  and because the fields hold no blanks.

  - `shown_display`: a value is read back from its text by its kind.
  - `append_displayRest_inj`: where the value of a clause ends and the next clause
    starts.
  - `eq_of_display_eq`: compiled predicates with equal texts are equal.
-/

namespace ProductSegments

/-- The value of the kind that a text shows. Strings stand between quotes. -/
def FieldKind.shown : FieldKind → String → Value
  | .number, text => Rule.coerce text
  | .boolean, text => Rule.coerce text
  | .string, text => .string (String.ofList text.toList.tail.dropLast)
  | .enumeration _, text => .string (String.ofList text.toList.tail.dropLast)

namespace Rule

variable {schema : Schema} {kind : FieldKind} {field : String} {v : Value}
  {clause clause' : Clause} {es es' : List (String × Clause)} {p q : Predicate}

/-! ### One clause -/

/-- A field's kind takes a value back from its text. -/
theorem shown_display (h : kind.Takes v) : kind.shown v.display = v := by
  have hquoted : ∀ s : String, (Value.string s).display.toList.tail.dropLast = s.toList := by
    intro s
    simp [Value.display]
  rcases h.cases with ⟨rfl, negative, m, rfl⟩ | ⟨rfl, b, rfl⟩ | ⟨rfl, s, rfl, -⟩ |
    ⟨allowed, rfl, s, rfl, -, -⟩
  · rw [FieldKind.shown]
    exact coerce_of_denotes (denotes_display negative m) (Double.ofDecimal_shortest .up m)
  · cases b <;> decide
  · simp only [FieldKind.shown, hquoted, String.ofList_toList]
  · simp only [FieldKind.shown, hquoted, String.ofList_toList]

/-- The text of a value holds no character that splits a rule, though it may hold
    blanks, quotes and `!`. -/
theorem noSplit_display (h : kind.Takes v) :
    ∀ c ∈ v.display.toList, isSplitChar c = false := by
  have hquoted : ∀ s : String, IsLiteral s →
      ∀ c ∈ (Value.string s).display.toList, isSplitChar c = false := by
    intro s hs c hc
    have hquote : isSplitChar '"' = false := by decide
    simp only [Value.display, String.toList_append, List.mem_append] at hc
    rcases hc with (hc | hc) | hc
    · rw [List.mem_singleton.mp hc]
      exact hquote
    · exact hs.noSplit c hc
    · rw [List.mem_singleton.mp hc]
      exact hquote
  rcases h.cases with ⟨-, negative, m, rfl⟩ | ⟨-, b, rfl⟩ | ⟨-, s, rfl, hs⟩ | ⟨_, -, s, rfl, hs, -⟩
  · intro c hc
    have hchar := Numeral.isGrammarChar_of_denotes (denotes_display negative m) hc
    exact (plain_of_isGrammarChar hchar).2
  · exact (isLiteral_written h).noSplit
  · exact hquoted s hs
  · exact hquoted s hs

/-- On one field, clauses with the same operator and the same text of the value are
    equal. -/
theorem Writable.eq_of_shown_eq (h : Writable schema field clause)
    (h' : Writable schema field clause') (hop : clause.operator = clause'.operator)
    (hdisplay : clause.value.display = clause'.value.display) : clause = clause' := by
  obtain ⟨kind, hkind, htakes⟩ := h.takes
  obtain ⟨kind', hkind', htakes'⟩ := h'.takes
  obtain rfl : kind = kind' := Option.some.inj (hkind.symm.trans hkind')
  have hvalue : clause.value = clause'.value := by
    rw [← shown_display htakes, hdisplay, shown_display htakes']
  rw [← Clause.clause_comparison h.normal field, hop, hvalue, Clause.clause_comparison h'.normal]

/-! ### Clauses behind a clause -/

/-- The text of the clauses that follow a clause. -/
def displayRest : List (String × Clause) → String
  | [] => ""
  | e :: es => " AND " ++ writeLine e.1 e.2.operator (e.2.value.display ++ displayRest es)

/-- A predicate with a clause is displayed as what follows the first joining word. -/
theorem displayRest_entries (h : p.entries ≠ []) :
    displayRest p.entries = " AND " ++ p.display := by
  have hjoin : ∀ e es, displayRest (e :: es) = " AND " ++ " AND ".intercalate
      ((e :: es).map fun e => e.1 ++ " " ++ Clause.display e.2) := by
    intro e es
    induction es generalizing e with
    | nil => simp [displayRest, writeLine, Clause.display, String.append_assoc]
    | cons e' es ih =>
      rw [displayRest, ih e']
      simp [writeLine, Clause.display, String.append_assoc]
  obtain ⟨e, es, hentries⟩ := List.exists_cons_of_ne_nil h
  have hempty : p.isEmpty = false := by simp [Keyed.isEmpty, hentries]
  rw [Predicate.display, hempty, hentries]
  exact hjoin e es

/-- A clause of a text of the schema, on a field without spaces. -/
structure Legible (schema : Schema) (e : String × Clause) : Prop where
  /-- A rule of the schema can put the clause there. -/
  writable : Writable schema e.1 e.2
  /-- The field is one word. -/
  noSpace : ' ' ∉ e.1.toList

/-- What an operator is recognised by is at most one `!` away from its start. -/
theorem exists_toList_symbol (op : Operator) : ∃ bang c rest,
    op.symbol.toList = bang ++ c :: rest ∧ (∀ d ∈ bang, isSplitChar d = false) ∧ ' ' ∉ bang ∧
      isSplitChar c = true := by
  have hnil : ∀ d ∈ [], isSplitChar d = false := List.forall_mem_nil _
  have hbang : ∀ d ∈ ['!'], isSplitChar d = false := List.forall_mem_singleton.mpr (by decide)
  cases op with
  | eq => exact ⟨[], '=', [], by decide, hnil, by decide⟩
  | ne => exact ⟨['!'], '=', [], by decide, hbang, by decide⟩
  | gt => exact ⟨[], '>', [], by decide, hnil, by decide⟩
  | ge => exact ⟨[], '>', ['='], by decide, hnil, by decide⟩
  | lt => exact ⟨[], '<', [], by decide, hnil, by decide⟩
  | le => exact ⟨[], '<', ['='], by decide, hnil, by decide⟩

theorem noSplit_of_noOperator (h : ∀ c ∈ field.toList, isOperatorChar c = false) :
    ∀ c ∈ field.toList, isSplitChar c = false := by
  intro c hc
  have hnone := h c hc
  simp only [isOperatorChar, Bool.or_eq_false_iff] at hnone
  obtain ⟨⟨⟨heq, -⟩, hlt⟩, hgt⟩ := hnone
  simp only [isSplitChar, heq, hlt, hgt, Bool.or_self]

/-- In a value and further clauses, what stands in front of the first character that
    splits a rule are the value, the joining word, the field of the next clause and
    what its operator starts with. -/
theorem exists_toList_append_displayRest {a : String} {e : String × Clause}
    (ha : ∀ c ∈ a.toList, isSplitChar c = false) (he : Legible schema e)
    (es : List (String × Clause)) :
    ∃ bang c rest, (a ++ displayRest (e :: es)).toList =
        (a.toList ++ " AND".toList ++ ' ' :: e.1.toList ++ ' ' :: bang) ++ c :: rest ∧
      (∀ d ∈ a.toList ++ " AND".toList ++ ' ' :: e.1.toList ++ ' ' :: bang,
        (!isSplitChar d) = true) ∧ ' ' ∉ bang ∧ isSplitChar c = true := by
  obtain ⟨bang, c, rest, hsymbol, hbang, hspace, hc⟩ := exists_toList_symbol e.2.operator
  refine ⟨bang, c, rest ++ ' ' :: (e.2.value.display ++ displayRest es).toList, ?_, ?_, hspace, hc⟩
  · simp [displayRest, toList_writeLine, hsymbol]
  · have hword : ∀ d ∈ " AND".toList, isSplitChar d = false := by simp [isSplitChar]
    have hblank : isSplitChar ' ' = false := by decide
    have hfield := noSplit_of_noOperator he.writable.isField.noOperator
    simp only [List.forall_mem_append, List.forall_mem_cons, Bool.not_eq_true']
    exact ⟨⟨⟨ha, hword⟩, hblank, hfield⟩, hblank, hbang⟩

/-- A value is not taken for another one with clauses behind it. -/
theorem ne_append_displayRest {a b : String} {e : String × Clause}
    (ha : ∀ c ∈ a.toList, isSplitChar c = false) (hb : ∀ c ∈ b.toList, isSplitChar c = false)
    (he : Legible schema e) (es : List (String × Clause)) : a ≠ b ++ displayRest (e :: es) := by
  rintro rfl
  obtain ⟨bang, c, rest, hrest, -, -, hc⟩ := exists_toList_append_displayRest hb he es
  have hnone : isSplitChar c = false := ha c (by simp [hrest])
  rw [hc] at hnone
  cases hnone

/-- A value with clauses behind it ends in front of the last joining word that leaves
    a field behind it. -/
theorem eq_of_append_displayRest_eq {a b : String} {e e' : String × Clause}
    (ha : ∀ c ∈ a.toList, isSplitChar c = false) (hb : ∀ c ∈ b.toList, isSplitChar c = false)
    (he : Legible schema e) (he' : Legible schema e')
    (h : a ++ displayRest (e :: es) = b ++ displayRest (e' :: es')) : a = b := by
  obtain ⟨bang, c, rest, hrest, hfront, hbang, hc⟩ := exists_toList_append_displayRest ha he es
  obtain ⟨bang', c', rest', hrest', hfront', hbang', hc'⟩ :=
    exists_toList_append_displayRest hb he' es'
  rw [h, hrest'] at hrest
  -- both texts are cut at the same character, and there at their last two spaces
  have hcut := (Text.append_inj_of_stops hfront' (Text.stops_cons (by simp [hc'])) hfront
    (Text.stops_cons (by simp [hc])) hrest).1
  have hfield := (Text.append_cons_inj_of_last hbang' hbang hcut).1
  have hvalue := (Text.append_cons_inj_of_last he'.noSpace he.noSpace hfield).1
  exact String.toList_inj.mp (List.append_cancel_right hvalue).symm

/-- **The end of a value.** Where a value ends and whether there are further clauses
    behind it can be told from the two together. -/
theorem append_displayRest_inj {a b : String} (ha : ∀ c ∈ a.toList, isSplitChar c = false)
    (hb : ∀ c ∈ b.toList, isSplitChar c = false) (hes : ∀ e ∈ es, Legible schema e)
    (hes' : ∀ e ∈ es', Legible schema e) (h : a ++ displayRest es = b ++ displayRest es') :
    a = b ∧ displayRest es = displayRest es' := by
  suffices hvalue : a = b by
    subst hvalue
    exact ⟨rfl, (String.append_right_inj a).mp h⟩
  cases es with
  | nil =>
    cases es' with
    | nil => simpa [displayRest] using h
    | cons e' es' =>
      have hne := ne_append_displayRest ha hb (hes' e' List.mem_cons_self) es'
      exact absurd (by simpa [displayRest] using h) hne
  | cons e es =>
    cases es' with
    | nil =>
      have hne := ne_append_displayRest hb ha (hes e List.mem_cons_self) es
      exact absurd (by simpa [displayRest] using h.symm) hne
    | cons e' es' =>
      exact eq_of_append_displayRest_eq ha hb (hes e List.mem_cons_self)
        (hes' e' List.mem_cons_self) h

/-! ### Whole predicates -/

/-- Equal texts are those of equal clauses. -/
theorem eq_of_displayRest_eq (hes : ∀ e ∈ es, Legible schema e)
    (hes' : ∀ e ∈ es', Legible schema e) (h : displayRest es = displayRest es') : es = es' := by
  have hempty : ∀ e es, displayRest (e :: es) ≠ "" := by
    intro e es hnil
    simpa [displayRest] using congrArg String.toList hnil
  induction es generalizing es' with
  | nil =>
    cases es' with
    | nil => rfl
    | cons e' es' => exact absurd h.symm (hempty e' es')
  | cons e es ih =>
    cases es' with
    | nil => exact absurd h (hempty e es)
    | cons e' es' =>
      obtain ⟨he, hrest⟩ := List.forall_mem_cons.mp hes
      obtain ⟨he', hrest'⟩ := List.forall_mem_cons.mp hes'
      obtain ⟨field, clause⟩ := e
      obtain ⟨field', clause'⟩ := e'
      obtain ⟨rfl, hop, hbehind⟩ := writeLine_inj he.writable.isField.noOperator
        he'.writable.isField.noOperator ((String.append_right_inj " AND ").mp h)
      obtain ⟨_, -, htakes⟩ := he.writable.takes
      obtain ⟨_, -, htakes'⟩ := he'.writable.takes
      obtain ⟨hvalue, hes⟩ := append_displayRest_inj (noSplit_display htakes)
        (noSplit_display htakes') hrest hrest' hbehind
      obtain rfl := he.writable.eq_of_shown_eq he'.writable hop hvalue
      rw [ih hrest hrest' hes]

/-- The predicate without clauses has a text of its own. -/
theorem display_ne_of_entries_eq_nil (hp : p.entries = []) (hq : q.entries ≠ []) :
    p.display ≠ q.display := by
  intro h
  have hstar : p.display = "*" := by simp [Predicate.display, Keyed.isEmpty, hp]
  obtain ⟨e, es, hentries⟩ := List.exists_cons_of_ne_nil hq
  have hrest := displayRest_entries hq
  rw [← h, hstar, hentries, displayRest, String.append_right_inj] at hrest
  have hspace : ' ' ∈ "*".toList := by simp [← hrest, toList_writeLine]
  exact absurd hspace (by decide)

/-- Predicates of legible clauses are told apart by their texts. -/
theorem eq_of_display_eq_of_legible (hp : ∀ e ∈ p.entries, Legible schema e)
    (hq : ∀ e ∈ q.entries, Legible schema e) (h : p.display = q.display) : p = q := by
  have hentries : p.entries = q.entries := by
    by_cases hpnil : p.entries = []
    · by_cases hqnil : q.entries = []
      · rw [hpnil, hqnil]
      · exact absurd h (display_ne_of_entries_eq_nil hpnil hqnil)
    · by_cases hqnil : q.entries = []
      · exact absurd h.symm (display_ne_of_entries_eq_nil hqnil hpnil)
      · apply eq_of_displayRest_eq hp hq
        rw [displayRest_entries hpnil, displayRest_entries hqnil, h]
  apply Keyed.ext_get?
  intro k
  rw [Keyed.get?, Keyed.get?, hentries]

theorem legible_of_compile {text : String}
    (hnames : ∀ name ∈ schema.keys, ∀ c ∈ name.toList, Text.isBlank c = false)
    (h : compile schema text = .ok p) : ∀ e ∈ p.entries, Legible schema e := by
  intro e he
  have hwritable := writable_of_compile h e he
  obtain ⟨kind, hkind, -⟩ := hwritable.takes
  have hkey : e.1 ∈ schema.keys := Schema.mem_keys_iff.mpr ⟨kind, hkind⟩
  refine ⟨hwritable, fun hspace => ?_⟩
  have hblank := hnames e.1 hkey ' ' hspace
  exact absurd hblank (by decide)

/-- **Displayed predicates.** In a schema whose field names hold no blanks, compiled
    predicates with the same text are the same predicate, whatever their strings
    hold. -/
theorem eq_of_display_eq (schema : Schema)
    (hnames : ∀ name ∈ schema.keys, ∀ c ∈ name.toList, Text.isBlank c = false)
    {a b : String} (ha : compile schema a = .ok p) (hb : compile schema b = .ok q)
    (h : p.display = q.display) : p = q :=
  eq_of_display_eq_of_legible (legible_of_compile hnames ha) (legible_of_compile hnames hb) h

/-- A title that reads like the end of a clause and the start of another, from two
    texts of which one replaces a rule. -/
theorem eq_of_display_eq_on_lookalike :
    let a := "title = sale\" AND tags !\ncategory = \"Toys"
    let b := " category != x\n\ttitle =  sale\" AND tags !\n category = \"Toys"
    (∀ name ∈ Schema.catalog.keys, ∀ c ∈ name.toList, Text.isBlank c = false) ∧
      ∃ p q, compile Schema.catalog a = .ok p ∧ compile Schema.catalog b = .ok q ∧
        p.display = "category = \"\"Toys\" AND title = \"sale\" AND tags !\"" ∧
        p.display = q.display ∧ p = q := by
  intro a b
  have hnames : ∀ name ∈ Schema.catalog.keys, ∀ c ∈ name.toList, Text.isBlank c = false := by
    have hall : Schema.catalog.keys.all (·.toList.all (!Text.isBlank ·)) = true := by decide
    simpa [List.all_eq_true] using hall
  let cs : List Comparison := [⟨"title", .eq, .string "sale\" AND tags !"⟩,
    ⟨"category", .eq, .string "\"Toys"⟩]
  have ha : compile Schema.catalog a = .ok (.ofComparisons cs) := by decide +kernel
  have hb : compile Schema.catalog b = .ok
    (.ofComparisons (⟨"category", .ne, .string "x"⟩ :: cs)) := by decide +kernel
  have hdisplay : (Predicate.ofComparisons cs).display =
    (Predicate.ofComparisons (⟨"category", .ne, .string "x"⟩ :: cs)).display := by decide +kernel
  exact ⟨hnames, _, _, ha, hb, by decide +kernel, hdisplay,
    eq_of_display_eq Schema.catalog hnames ha hb hdisplay⟩

/-- With a blank in a field name the text no longer says where a string ends. -/
example :
    let schema := Schema.ofSpecs [⟨"a", .string⟩, ⟨"b", .string⟩, ⟨"c\" AND b", .string⟩]
    ∃ p q, compile schema "a = x\nc\" AND b = y" = .ok p ∧
      compile schema "a = x\" AND c\nb = y" = .ok q ∧ p.display = q.display ∧ p ≠ q := by
  intro schema
  exact ⟨.ofComparisons [⟨"a", .eq, .string "x"⟩, ⟨"c\" AND b", .eq, .string "y"⟩],
    .ofComparisons [⟨"a", .eq, .string "x\" AND c"⟩, ⟨"b", .eq, .string "y"⟩],
    by decide +kernel, by decide +kernel, by decide +kernel, by decide +kernel⟩

end Rule

end ProductSegments
