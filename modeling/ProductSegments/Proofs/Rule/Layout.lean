import ProductSegments.Proofs.Rule.Lines

/-! # How lines are laid out

  The same lines can be written as a text in many ways. Blanks may stand around
  each of them, and blank pieces in front of them, between them and behind them.
  Reading the lines of a text is the way back from all of these layouts:

  - `LaysOut`: pieces that hold the lines, told without trimming anything.
  - `lines_of_laysOut`: every layout of lines has these lines.
  - `exists_laysOut_lines`: every text is a layout of its lines.
  - `lines_of_layout`: both, with what is known of the lines themselves.
-/

namespace ProductSegments

namespace Rule

/-- White space that ends no line. -/
def IsPadding (s : String) : Prop := ∀ c ∈ s.toList, Text.isBlank c = true ∧ c ≠ '\n'

instance (s : String) : Decidable (IsPadding s) :=
  decidable_of_iff (s.toList.all fun c => Text.isBlank c && c != '\n') (by simp [IsPadding])

/-- The pieces of a text between its line feeds hold the lines in their order. -/
inductive LaysOut : List String → List String → Prop where
  /-- Without pieces there are no lines. -/
  | nil : LaysOut [] []
  /-- A piece of white space holds no line. -/
  | blank {piece : String} {ls pieces : List String} (hpiece : IsPadding piece)
      (h : LaysOut ls pieces) : LaysOut ls (piece :: pieces)
  /-- A piece holds a line, with white space around it. -/
  | line {front back l : String} {ls pieces : List String} (hfront : IsPadding front)
      (hback : IsPadding back) (h : LaysOut ls pieces) :
      LaysOut (l :: ls) ((front ++ l ++ back) :: pieces)

variable {ls pieces : List String}

/-! ### White space -/

theorem IsPadding.allBlank {s : String} (h : IsPadding s) : Text.AllBlank s.toList :=
  fun c hc => (h c hc).1

theorem IsPadding.not_mem_lf {s : String} (h : IsPadding s) : '\n' ∉ s.toList :=
  fun hlf => (h '\n' hlf).2 rfl

theorem isPadding_ofList {cs : List Char} (hblank : Text.AllBlank cs) (hlf : '\n' ∉ cs) :
    IsPadding (String.ofList cs) := by
  intro c hc
  rw [String.toList_ofList] at hc
  exact ⟨hblank c hc, fun heq => hlf (heq ▸ hc)⟩

/-! ### From layouts to lines -/

/-- A line with white space around it is the only line there. -/
theorem lines_padded {front l back : String} (hfront : IsPadding front) (hl : IsLine l)
    (hback : IsPadding back) : lines (front ++ l ++ back) = [l] := by
  have htrim : Text.trim (front ++ l ++ back).toList = l.toList := by
    rw [String.toList_append, String.toList_append]
    exact Text.trim_blanks_around hfront.allBlank hl.bare hback.allBlank
  have hlf : '\n' ∉ (front ++ l ++ back).toList := by
    simp [hfront.not_mem_lf, hl.oneLine, hback.not_mem_lf]
  have hne : Text.trim (front ++ l ++ back).toList ≠ [] := by
    rw [htrim]
    exact hl.toList_ne_nil
  rw [lines_of_not_mem hlf hne, Text.trimmed, htrim, String.ofList_toList]

/-- The pieces of a layout have the lines that they hold. -/
theorem lines_of_laysOut (hls : ∀ l ∈ ls, IsLine l) (h : LaysOut ls pieces) :
    lines ("\n".intercalate pieces) = ls := by
  rw [lines_intercalate]
  induction h with
  | nil => rfl
  | blank hpiece _ ih =>
    rw [List.flatMap_cons, lines_eq_nil_iff.mpr hpiece.allBlank, ih hls]
    rfl
  | line hfront hback _ ih =>
    obtain ⟨hl, hrest⟩ := List.forall_mem_cons.mp hls
    rw [List.flatMap_cons, lines_padded hfront hl hback, ih hrest]
    rfl

/-! ### From texts to layouts -/

/-- Pieces without line feeds are a layout of what trimming leaves of them. -/
theorem laysOut_trim {css : List (List Char)} (hlf : ∀ cs ∈ css, '\n' ∉ cs) :
    LaysOut (((css.map Text.trim).filter (· ≠ [])).map String.ofList) (css.map String.ofList) := by
  induction css with
  | nil => exact .nil
  | cons cs css ih =>
    obtain ⟨hcs, hrest⟩ := List.forall_mem_cons.mp hlf
    rw [List.map_cons, List.map_cons, List.filter_cons]
    by_cases hblank : Text.trim cs = []
    · rw [if_neg (by simp [hblank])]
      exact .blank (isPadding_ofList (Text.trim_eq_nil_iff.mp hblank) hcs) (ih hrest)
    · rw [if_pos (by simp [hblank]), List.map_cons]
      -- what is trimmed off stands around the line
      obtain ⟨front, back, heq, hfront, hback⟩ := Text.exists_blanks_around_trim cs
      have hpiece : String.ofList cs =
          String.ofList front ++ String.ofList (Text.trim cs) ++ String.ofList back := by
        rw [← String.ofList_append, ← String.ofList_append, ← heq]
      have hfront' : '\n' ∉ front := fun h => hcs (heq ▸ by simp [h])
      have hback' : '\n' ∉ back := fun h => hcs (heq ▸ by simp [h])
      rw [hpiece]
      exact .line (isPadding_ofList hfront hfront') (isPadding_ofList hback hback') (ih hrest)

/-- The pieces of a text, joined with line feeds again, are the text. -/
theorem intercalate_splitLines (text : String) :
    "\n".intercalate ((splitLines text.toList).map String.ofList) = text := by
  have hpieces : ((splitLines text.toList).map String.ofList).map String.toList =
      splitLines text.toList := by simp
  have hlf : "\n".toList = ['\n'] := rfl
  rw [← String.toList_inj, String.toList_intercalate, hpieces, hlf, splitLines_eq_splitOn]
  exact List.intercalate_splitOn '\n'

/-- Every text is a layout of its lines. -/
theorem exists_laysOut_lines (text : String) :
    ∃ pieces, LaysOut (lines text) pieces ∧ "\n".intercalate pieces = text := by
  refine ⟨(splitLines text.toList).map String.ofList, laysOut_trim ?_, intercalate_splitLines text⟩
  intro cs hcs hlf
  exact (exists_mem_splitLines.mp ⟨cs, hcs, hlf⟩).2 rfl

/-- **Layouts.** Lines are read back from every text that lays them out, whatever
    white space stands around, in front of, between and behind them. Conversely, what
    is read from a text are lines that the text lays out, and joining them with line
    feeds makes a text with the same lines. -/
theorem lines_of_layout :
    (∀ ls pieces : List String, (∀ l ∈ ls, IsLine l) → LaysOut ls pieces →
      lines ("\n".intercalate pieces) = ls) ∧
    ∀ text : String, (∀ l ∈ lines text, IsLine l) ∧
      (∃ pieces, LaysOut (lines text) pieces ∧ "\n".intercalate pieces = text) ∧
      lines ("\n".intercalate (lines text)) = lines text := by
  refine ⟨fun ls pieces hls h => lines_of_laysOut hls h, fun text => ?_⟩
  have hlines : ∀ l ∈ lines text, IsLine l := fun l hl => isLine_of_mem_lines hl
  exact ⟨hlines, exists_laysOut_lines text, lines_intercalate_of_isLine hlines⟩

/-- Two lines that end with carriage returns, with an ideographic space in front of
    the one and a no-break space behind the other, and lines of white space around
    them. -/
theorem lines_of_layout_with_wide_blanks :
    let ls := ["price > 5", "title = a  b"]
    let pieces := ["\r", "\u3000" ++ "price > 5" ++ "\t\r", "", " \r",
      "" ++ "title = a  b" ++ "\u00a0\r", "\x0b "]
    (∀ l ∈ ls, IsLine l) ∧ LaysOut ls pieces ∧ lines ("\n".intercalate pieces) = ls := by
  intro ls pieces
  have hls : ∀ l ∈ ls, IsLine l := by decide
  have hlayout : LaysOut ls pieces :=
    .blank (by decide) <| .line (by decide) (by decide) <| .blank (by decide) <|
      .blank (by decide) <| .line (by decide) (by decide) <| .blank (by decide) .nil
  exact ⟨hls, hlayout, lines_of_layout.1 ls pieces hls hlayout⟩

end Rule

end ProductSegments
