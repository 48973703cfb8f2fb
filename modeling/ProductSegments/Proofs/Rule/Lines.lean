import Mathlib.Data.List.Basic
import ProductSegments.Proofs.Text.Trim
import ProductSegments.Rule.Tokens

/-! # The lines of a text

  What `Rule.lines` returns are *lines*: texts that are not empty, neither
  start nor end with a blank and hold no line feed. Joining texts with a line
  feed joins their lines, so a text that is made of lines has exactly these:

  - `isLine_of_mem_lines`: only lines are returned.
  - `infix_of_mem_lines`: they stand in the text.
  - `lines_of_isLine`: a line is its own only line.
  - `lines_append_lf`: the lines of two texts with a line feed in between.
  - `lines_intercalate`: the lines of texts that are joined with line feeds.
-/

namespace ProductSegments

namespace Rule

/-- A text that can stand in a list of lines. -/
structure IsLine (line : String) : Prop where
  /-- Something is written on the line. -/
  nonempty : line ≠ ""
  /-- There are no blanks around it. -/
  trimmed : Text.trimmed line = line
  /-- It does not go on behind a line feed. -/
  oneLine : '\n' ∉ line.toList

instance (line : String) : Decidable (IsLine line) :=
  decidable_of_iff (line ≠ "" ∧ Text.trimmed line = line ∧ '\n' ∉ line.toList)
    ⟨fun h => ⟨h.1, h.2.1, h.2.2⟩, fun h => ⟨h.nonempty, h.trimmed, h.oneLine⟩⟩

namespace IsLine

variable {line : String}

theorem toList_ne_nil (h : IsLine line) : line.toList ≠ [] := by
  intro hnil
  exact h.nonempty (String.toList_eq_nil_iff.mp hnil)

theorem bare (h : IsLine line) : Text.Bare line.toList := Text.trimmed_eq_self_iff.mp h.trimmed

end IsLine

/-- What trimming leaves of a piece without line feeds is a line. -/
theorem isLine_ofList_trim {cs : List Char} (hne : Text.trim cs ≠ []) (hlf : '\n' ∉ cs) :
    IsLine (String.ofList (Text.trim cs)) := by
  refine ⟨?_, Text.trimmed_ofList_trim cs, ?_⟩
  · intro h
    exact hne (by simpa using h)
  · intro h
    rw [String.toList_ofList] at h
    exact hlf (Text.mem_of_mem_trim h)

/-! ### Splitting at line feeds -/

theorem splitLines_eq_splitOn (cs : List Char) : splitLines cs = cs.splitOn '\n' := by
  induction cs with
  | nil => rfl
  | cons c cs ih =>
    rw [List.splitOn_cons_eq_if_modifyHead, ← ih]
    by_cases hc : c = '\n'
    · rw [hc, splitLines_cons_lf]
      rfl
    · rw [splitLines_cons hc]
      -- there is a first piece for the character to join
      have hne : splitLines cs ≠ [] := by
        rw [ih]
        exact List.splitOn_ne_nil '\n' cs
      cases hcs : splitLines cs with
      | nil => exact absurd hcs hne
      | cons l ls => simp [extendFirst, hc]

theorem splitLines_append_lf (as bs : List Char) :
    splitLines (as ++ '\n' :: bs) = splitLines as ++ splitLines bs := by
  simp only [splitLines_eq_splitOn]
  exact List.splitOn_append_cons_self as bs

theorem splitLines_of_not_mem {cs : List Char} (h : '\n' ∉ cs) : splitLines cs = [cs] := by
  rw [splitLines_eq_splitOn]
  exact List.splitOn_eq_singleton h

theorem exists_mem_extendFirst {c d : Char} {ls : List (List Char)} :
    (∃ l ∈ extendFirst d ls, c ∈ l) ↔ c = d ∨ ∃ l ∈ ls, c ∈ l := by
  cases ls with
  | nil => simp [extendFirst]
  | cons l ls => simp [extendFirst, or_assoc]

/-- The characters of the pieces are those of the text, without the line feeds. -/
theorem exists_mem_splitLines {c : Char} {cs : List Char} :
    (∃ l ∈ splitLines cs, c ∈ l) ↔ c ∈ cs ∧ c ≠ '\n' := by
  induction cs with
  | nil => simp
  | cons d cs ih =>
    by_cases hd : d = '\n'
    · -- a line feed starts an empty piece and is a character of none
      subst hd
      rw [splitLines_cons_lf, List.exists_mem_cons_iff, ih, List.mem_cons]
      constructor
      · intro h
        rcases h with h | ⟨h, hne⟩
        · cases h
        · exact ⟨.inr h, hne⟩
      · intro ⟨h, hne⟩
        rcases h with h | h
        · exact absurd h hne
        · exact .inr ⟨h, hne⟩
    · rw [splitLines_cons hd, exists_mem_extendFirst, ih, List.mem_cons]
      constructor
      · intro h
        rcases h with rfl | ⟨h, hne⟩
        · exact ⟨.inl rfl, hd⟩
        · exact ⟨.inr h, hne⟩
      · intro ⟨h, hne⟩
        rcases h with h | h
        · exact .inl h
        · exact .inr ⟨h, hne⟩

/-- The first piece is what the text starts with, the others stand in it. -/
theorem exists_splitLines_eq_cons (cs : List Char) :
    ∃ first rest, splitLines cs = first :: rest ∧ first <+: cs ∧ ∀ l ∈ rest, l <:+: cs := by
  induction cs with
  | nil => exact ⟨[], [], rfl, List.nil_prefix, by simp⟩
  | cons c cs ih =>
    obtain ⟨first, rest, hcs, hfirst, hrest⟩ := ih
    have hlater : ∀ l ∈ rest, l <:+: c :: cs := fun l hl => List.infix_cons (hrest l hl)
    by_cases hc : c = '\n'
    · -- behind a line feed the first piece so far is no longer the first one
      subst hc
      refine ⟨[], first :: rest, by rw [splitLines_cons_lf, hcs], List.nil_prefix, ?_⟩
      intro l hl
      rcases List.mem_cons.mp hl with rfl | hl
      · exact List.infix_cons hfirst.isInfix
      · exact hlater l hl
    · refine ⟨c :: first, rest, by rw [splitLines_cons hc, hcs]; rfl, ?_, hlater⟩
      exact (List.prefix_cons_inj c).mpr hfirst

/-! ### Lines -/

/-- Every line stands in the text as it is. -/
theorem infix_of_mem_lines {text line : String} (h : line ∈ lines text) :
    line.toList <:+: text.toList := by
  unfold lines at h
  simp only [List.mem_map, List.mem_filter] at h
  obtain ⟨_, ⟨⟨piece, hpiece, rfl⟩, -⟩, rfl⟩ := h
  have hline : Text.trim piece <:+: piece := by
    obtain ⟨front, back, hpiece, -, -⟩ := Text.exists_blanks_around_trim piece
    exact ⟨front, back, hpiece.symm⟩
  have hinfix : piece <:+: text.toList := by
    obtain ⟨first, rest, htext, hfirst, hrest⟩ := exists_splitLines_eq_cons text.toList
    rw [htext] at hpiece
    rcases List.mem_cons.mp hpiece with rfl | hpiece
    · exact hfirst.isInfix
    · exact hrest piece hpiece
  rw [String.toList_ofList]
  exact hline.trans hinfix

theorem isLine_of_mem_lines {text line : String} (h : line ∈ lines text) : IsLine line := by
  unfold lines at h
  simp only [List.mem_map, List.mem_filter, decide_eq_true_eq] at h
  obtain ⟨_, ⟨⟨piece, hpiece, rfl⟩, hne⟩, rfl⟩ := h
  have hlf : '\n' ∉ piece := fun hc => (exists_mem_splitLines.mp ⟨piece, hpiece, hc⟩).2 rfl
  exact isLine_ofList_trim hne hlf

/-- Joining two texts with a line feed joins their lines. -/
theorem lines_append_lf (a b : String) : lines (a ++ "\n" ++ b) = lines a ++ lines b := by
  have hjoin : (a ++ "\n" ++ b).toList = a.toList ++ '\n' :: b.toList := by simp
  unfold lines
  rw [hjoin, splitLines_append_lf, List.map_append, List.filter_append, List.map_append]

/-- A text without line feeds has one line, unless it is blank. -/
theorem lines_of_not_mem {text : String} (hlf : '\n' ∉ text.toList)
    (hne : Text.trim text.toList ≠ []) : lines text = [Text.trimmed text] := by
  unfold lines
  rw [splitLines_of_not_mem hlf]
  simp [hne, Text.trimmed]

/-- A line is its own only line. -/
theorem lines_of_isLine {line : String} (h : IsLine line) : lines line = [line] := by
  have htrim : Text.trim line.toList = line.toList := Text.trim_eq_self_iff.mpr h.bare
  have hne : Text.trim line.toList ≠ [] := by
    rw [htrim]
    exact h.toList_ne_nil
  rw [lines_of_not_mem h.oneLine hne, h.trimmed]

/-- The lines of texts that are joined with line feeds are those of the one text
    after the other. -/
theorem lines_intercalate (texts : List String) :
    lines ("\n".intercalate texts) = texts.flatMap lines := by
  induction texts with
  | nil => rfl
  | cons text texts ih =>
    -- a line feed is put between texts only, so a single text is a case of its own
    cases texts with
    | nil => simp
    | cons next texts =>
      rw [String.intercalate_cons_cons, lines_append_lf, ih]
      rfl

/-- Lines that are joined with line feeds are the lines of the text. -/
theorem lines_intercalate_of_isLine {ls : List String} (h : ∀ l ∈ ls, IsLine l) :
    lines ("\n".intercalate ls) = ls := by
  have heach : ls.flatMap lines = ls.flatMap fun l => [l] :=
    List.flatMap_congr fun l hl => lines_of_isLine (h l hl)
  rw [lines_intercalate, heach, List.flatMap_singleton']

/-- A text has no lines exactly when all of it is blank. -/
theorem lines_eq_nil_iff {text : String} : lines text = [] ↔ Text.AllBlank text.toList := by
  unfold lines
  rw [List.map_eq_nil_iff, List.filter_eq_nil_iff]
  constructor
  · intro h c hc
    -- a character stands in some piece, unless it is a line feed, which is blank too
    by_cases hlf : c = '\n'
    · rw [hlf]
      exact Text.isBlank_lf
    · obtain ⟨l, hl, hcl⟩ := exists_mem_splitLines.mpr ⟨hc, hlf⟩
      have hnil : Text.trim l = [] := by simpa using h _ (List.mem_map_of_mem hl)
      exact Text.trim_eq_nil_iff.mp hnil c hcl
  · intro h l hl
    obtain ⟨piece, hpiece, rfl⟩ := List.mem_map.mp hl
    have hblank : Text.AllBlank piece := fun c hc =>
      h c (exists_mem_splitLines.mp ⟨piece, hpiece, hc⟩).1
    simp [Text.trim_eq_nil_iff.mpr hblank]

end Rule

end ProductSegments
