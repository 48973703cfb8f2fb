import ProductSegments.Json.Reader
import ProductSegments.Json.Text

/-! # JSON strings read back

  Every character of a string is escaped on its own, and what it is escaped to
  is read as one piece that denotes the character again, whatever follows. So
  a text is read back by induction on its characters.

  - `Json.readsAs_escaped` is the step: the piece of one character.
  - `Json.exists_readPieces_escaped`: the pieces of a whole text.
  - `Json.readString_stringText`: a written string is read as itself, and so is
    one that denotes no text.
-/

namespace ProductSegments

namespace Json

/-! ### One character -/

/-- A piece that denotes a character on its own. -/
def Piece.Denotes (p : Piece) (c : Char) : Prop :=
  ∀ ps, piecesText? (p :: ps) = (piecesText? ps).map (c :: ·)

/-- The escape of a character is read as a piece that denotes it. -/
def ReadsAs (written : List Char) (c : Char) : Prop :=
  ∃ p : Piece, p.Denotes c ∧ ∀ rest,
    readPieces (written.map some ++ rest) = (readPieces rest).map fun r => (p :: r.1, r.2)

theorem denotes_char (c : Char) : (Piece.char c).Denotes c := fun _ => rfl

/-- The unit of a control character is no half of a surrogate pair. -/
theorem denotes_unit {c : Char} (h : c.toNat < 0x20) : (Piece.unit c.toNat).Denotes c := by
  intro ps
  have hhigh : isHighSurrogate c.toNat = false := by
    have hlt : ¬ 0xD800 ≤ c.toNat := by omega
    simp [isHighSurrogate, hlt]
  have hlow : isLowSurrogate c.toNat = false := by
    have hlt : ¬ 0xDC00 ≤ c.toNat := by omega
    simp [isLowSurrogate, hlt]
  rw [piecesText?.eq_def]
  simp only [hhigh, hlow, Bool.false_eq_true, if_false, Char.ofNat_toNat]

/-- A letter behind a backslash is read as the character that it stands for. -/
theorem readsAs_letter {e c : Char} (hletter : e ≠ 'u') (h : unescape? e = some c) :
    ReadsAs ['\\', e] c := by
  refine ⟨.char c, denotes_char c, fun rest => ?_⟩
  simp only [List.map_cons, List.map_nil, List.cons_append, List.nil_append]
  rw [readPieces, h]
  · cases readPieces rest <;> rfl
  · exact fun _ _ _ _ _ _ hu => hletter hu

theorem valueIn?_hexDigits :
    ∀ n < 0x20, Text.valueIn? 16 ['0', '0', hexDigit (n / 16), hexDigit (n % 16)] = some n := by
  decide

/-- The digits of a control character are read as its unit. -/
theorem readsAs_digits {c : Char} (h : c.toNat < 0x20) :
    ReadsAs ['\\', 'u', '0', '0', hexDigit (c.toNat / 16), hexDigit (c.toNat % 16)] c := by
  refine ⟨.unit c.toNat, denotes_unit h, fun rest => ?_⟩
  simp only [List.map_cons, List.map_nil, List.cons_append, List.nil_append]
  rw [readPieces, valueIn?_hexDigits c.toNat h]
  cases readPieces rest <;> rfl

/-- A character that is not escaped is read as itself. -/
theorem readsAs_self {c : Char} (hquote : c ≠ '"') (hbackslash : c ≠ '\\')
    (h : ¬ c.toNat < 0x20) : ReadsAs [c] c := by
  refine ⟨.char c, denotes_char c, fun rest => ?_⟩
  simp only [List.map_cons, List.map_nil, List.cons_append, List.nil_append]
  rw [readPieces]
  · rw [if_neg (by simp [h, hbackslash])]
  · simpa using hquote
  · simp [hbackslash]
  · simp [hbackslash]

theorem readsAs_escaped (c : Char) : ReadsAs (escaped c) c := by
  unfold escaped
  split
  iterate 7 exact readsAs_letter (by decide) rfl
  next hquote hbackslash _ _ _ _ _ =>
    split
    · next h => exact readsAs_digits h
    · next h => exact readsAs_self hquote hbackslash h

/-! ### Whole strings -/

/-- Escaped text is read up to the quote behind it. -/
theorem exists_readPieces_escaped (cs : List Char) (rest : List Text.Symbol) :
    ∃ ps, readPieces ((cs.flatMap escaped).map some ++ some '"' :: rest) = some (ps, rest) ∧
      piecesText? ps = some cs := by
  induction cs with
  | nil => exact ⟨[], rfl, rfl⟩
  | cons c cs ih =>
    obtain ⟨ps, hread, htext⟩ := ih
    obtain ⟨p, hdenotes, hescaped⟩ := readsAs_escaped c
    refine ⟨p :: ps, ?_, ?_⟩
    · rw [List.flatMap_cons, List.map_append, List.append_assoc, hescaped, hread, Option.map_some]
    · rw [hdenotes, htext, Option.map_some]

/-- A written string is read as itself, behind its opening quote. -/
theorem readString_stringText (s? : Option String) (rest : List Text.Symbol) :
    ∃ tail, (stringText s?).map some ++ rest = some '"' :: tail ∧
      readString tail = some (s?, rest) := by
  cases s? with
  | none => exact ⟨_, rfl, rfl⟩
  | some s =>
    obtain ⟨ps, hread, htext⟩ := exists_readPieces_escaped s.toList rest
    refine ⟨(s.toList.flatMap escaped).map some ++ some '"' :: rest, ?_, ?_⟩
    · simp [stringText, quotedText]
    · simp [readString, hread, htext]

end Json

end ProductSegments
