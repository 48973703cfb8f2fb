import ProductSegments.Proofs.Json.Number
import ProductSegments.Proofs.Json.Strings

/-! # JSON text read back

  Every JSON value is read back from its text. The readers of values, items and
  members call one another with one unit of fuel less, so what they read back
  is carried from one amount of fuel to the next for all three of them at once.
  Fuel lasts because there is as much of it as text to read.

  - `Json.ReadsBack fuel`: with this fuel the three readers read back all text
    that the fuel lasts for.
  - `ReadsBack.value_succ`, `items_succ` and `members_succ` are the steps.
  - `Json.read?_toText`: a whole text is read back, by induction on the fuel.
-/

namespace ProductSegments

namespace Json

open Text (Symbol Stops stops_cons stops_nil)

/-! ### The first character of a value -/

theorem skipSpace_cons {c : Char} (h : isSpace (some c) = false) (cs : List Symbol) :
    skipSpace (some c :: cs) = some c :: cs := by
  unfold skipSpace
  rw [List.dropWhile_cons_of_neg (by simp [h])]

theorem StartsNumber.isSpace_eq_false {c : Char} (h : StartsNumber c) :
    isSpace (some c) = false := by
  have hne : ∀ d, ¬ StartsNumber d → (c == d) = false := by
    intro d hd
    exact beq_eq_false_iff_ne.mpr (h.ne hd)
  show (c == ' ' || c == '\t' || c == '\n' || c == '\r') = false
  rw [hne ' ' (by decide), hne '\t' (by decide), hne '\n' (by decide), hne '\r' (by decide)]
  rfl

/-- Whatever starts like a number is read as one. -/
theorem readValue_of_startsNumber {c : Char} (h : StartsNumber c) (fuel : Nat)
    (cs : List Symbol) : readValue (fuel + 1) (some c :: cs) = readNumber (some c :: cs) := by
  have hn : c ≠ 'n' := h.ne (by decide)
  have ht : c ≠ 't' := h.ne (by decide)
  have hf : c ≠ 'f' := h.ne (by decide)
  have hquote : c ≠ '"' := h.ne (by decide)
  have hbracket : c ≠ '[' := h.ne (by decide)
  have hbrace : c ≠ '{' := h.ne (by decide)
  rw [readValue, skipSpace_cons h.isSpace_eq_false]
  split <;> simp_all

/-- The text of a value starts with no space and closes no list. -/
theorem exists_write_eq_cons (j : Json) :
    ∃ c cs, write j = c :: cs ∧ isSpace (some c) = false ∧ c ≠ ']' := by
  have hnumber : ∀ p : NumberParts,
      ∃ c cs, p.text = c :: cs ∧ isSpace (some c) = false ∧ c ≠ ']' := by
    intro p
    obtain ⟨c, cs, htext, hstart⟩ := p.exists_text_eq_cons
    exact ⟨c, cs, htext, hstart.isSpace_eq_false, hstart.ne (by decide)⟩
  cases j with
  | null => exact ⟨_, _, by rw [write], by decide, by decide⟩
  | boolean b => cases b <;> exact ⟨_, _, by rw [write], by decide, by decide⟩
  | integer negative n =>
    obtain ⟨p, htext, -⟩ := exists_parts_integer negative n
    exact htext ▸ hnumber p
  | real n =>
    obtain ⟨p, htext, -⟩ := exists_parts_real n
    exact htext ▸ hnumber p
  | string s? => cases s? <;> exact ⟨'"', _, by rw [write]; rfl, by decide, by decide⟩
  | array items => exact ⟨_, _, by rw [write], by decide, by decide⟩
  | object members => exact ⟨_, _, by rw [write], by decide, by decide⟩

/-! ### Lists of values -/

theorem writeItems_cons_cons (v w : Json) (ws : List Json) :
    writeItems (v :: w :: ws) = write v ++ ',' :: writeItems (w :: ws) := by
  simp [writeItems]

theorem writeMembers_cons_cons (m n : Option String × Json) (ns : List (Option String × Json)) :
    writeMembers (m :: n :: ns) =
      stringText m.1 ++ ':' :: (write m.2 ++ ',' :: writeMembers (n :: ns)) := by
  simp [writeMembers]

/-- Items start as the first of them does. -/
theorem exists_writeItems_eq_cons (v : Json) (vs : List Json) :
    ∃ c cs, writeItems (v :: vs) = c :: cs ∧ isSpace (some c) = false ∧ c ≠ ']' := by
  obtain ⟨c, cs, hwrite, hstart⟩ := exists_write_eq_cons v
  cases vs with
  | nil => exact ⟨c, cs, by rw [writeItems, hwrite], hstart⟩
  | cons w ws => exact ⟨c, _, by rw [writeItems_cons_cons, hwrite, List.cons_append], hstart⟩

theorem exists_stringText_eq_cons (s? : Option String) : ∃ cs, stringText s? = '"' :: cs := by
  cases s? <;> exact ⟨_, rfl⟩

/-- Members start with the quote of a key. -/
theorem exists_writeMembers_eq_cons (m : Option String × Json)
    (ms : List (Option String × Json)) : ∃ cs, writeMembers (m :: ms) = '"' :: cs := by
  obtain ⟨cs, hkey⟩ := exists_stringText_eq_cons m.1
  cases ms with
  | nil => exact ⟨_, by rw [writeMembers, hkey, List.cons_append]⟩
  | cons n ns => exact ⟨_, by rw [writeMembers_cons_cons, hkey, List.cons_append]⟩

/-! ### One unit of fuel more -/

/-- The readers read back what the fuel lasts for. What follows a value must not
    continue it, as it could a number. -/
structure ReadsBack (fuel : Nat) : Prop where
  /-- Values are read back. -/
  value : ∀ (j : Json) (rest : List Symbol), j.write.length ≤ fuel → Stops isNumberSymbol rest →
    readValue fuel (j.write.map some ++ rest) = some (j, rest)
  /-- The items of a list are read back, up to the bracket behind them. -/
  items : ∀ (v : Json) (vs : List Json) (rest : List Symbol),
    (writeItems (v :: vs)).length < fuel →
    readItems fuel ((writeItems (v :: vs)).map some ++ some ']' :: rest) = some (v :: vs, rest)
  /-- The members of an object are read back, up to the brace behind them. -/
  members : ∀ (m : Option String × Json) (ms : List (Option String × Json)) (rest : List Symbol),
    (writeMembers (m :: ms)).length < fuel →
    readMembers fuel ((writeMembers (m :: ms)).map some ++ some '}' :: rest) = some (m :: ms, rest)

theorem readsBack_zero : ReadsBack 0 where
  value j _ hfuel := by
    obtain ⟨c, cs, hwrite, -⟩ := exists_write_eq_cons j
    rw [hwrite] at hfuel
    exact absurd hfuel (by simp)
  items _ _ _ hfuel := absurd hfuel (Nat.not_lt_zero _)
  members _ _ _ hfuel := absurd hfuel (Nat.not_lt_zero _)

namespace ReadsBack

variable {fuel : Nat}

theorem items_succ (h : ReadsBack fuel) (v : Json) (vs : List Json) (rest : List Symbol)
    (hfuel : (writeItems (v :: vs)).length < fuel + 1) :
    readItems (fuel + 1) ((writeItems (v :: vs)).map some ++ some ']' :: rest) =
      some (v :: vs, rest) := by
  cases vs with
  | nil =>
    rw [writeItems] at hfuel ⊢
    have hv := h.value v (some ']' :: rest) (by omega) (stops_cons (by decide))
    have hclose : skipSpace (some ']' :: rest) = some ']' :: rest := skipSpace_cons (by decide) rest
    simp [readItems, hv, hclose]
  | cons w ws =>
    rw [writeItems_cons_cons] at hfuel ⊢
    rw [List.length_append, List.length_cons] at hfuel
    have hv := h.value v (some ',' :: ((writeItems (w :: ws)).map some ++ some ']' :: rest))
      (by omega) (stops_cons (by decide))
    have hws := h.items w ws rest (by omega)
    have hcomma : ∀ cs, skipSpace (some ',' :: cs) = some ',' :: cs := skipSpace_cons (by decide)
    simp [readItems, hv, hws, hcomma]

/-- A member in front of a closing brace is the last one. -/
theorem readMembers_last {v : Json} {cs rest : List Symbol} (key? : Option String)
    (hv : readValue fuel cs = some (v, some '}' :: rest)) :
    readMembers (fuel + 1) ((stringText key?).map some ++ some ':' :: cs) =
      some ([(key?, v)], rest) := by
  obtain ⟨tail, hquote, hkey⟩ := readString_stringText key? (some ':' :: cs)
  have hcolon : skipSpace (some ':' :: cs) = some ':' :: cs := skipSpace_cons (by decide) cs
  have hclose : skipSpace (some '}' :: rest) = some '}' :: rest := skipSpace_cons (by decide) rest
  rw [hquote, readMembers, skipSpace_cons (by decide)]
  simp [hkey, hcolon, hv, hclose]

/-- A member in front of a comma is followed by others. -/
theorem readMembers_more {v : Json} {cs cs' rest : List Symbol} (key? : Option String)
    {ms : List (Option String × Json)} (hv : readValue fuel cs = some (v, some ',' :: cs'))
    (hms : readMembers fuel cs' = some (ms, rest)) :
    readMembers (fuel + 1) ((stringText key?).map some ++ some ':' :: cs) =
      some ((key?, v) :: ms, rest) := by
  obtain ⟨tail, hquote, hkey⟩ := readString_stringText key? (some ':' :: cs)
  have hcolon : skipSpace (some ':' :: cs) = some ':' :: cs := skipSpace_cons (by decide) cs
  have hcomma : skipSpace (some ',' :: cs') = some ',' :: cs' := skipSpace_cons (by decide) cs'
  rw [hquote, readMembers, skipSpace_cons (by decide)]
  simp [hkey, hcolon, hv, hcomma, hms]

theorem members_succ (h : ReadsBack fuel) (m : Option String × Json)
    (ms : List (Option String × Json)) (rest : List Symbol)
    (hfuel : (writeMembers (m :: ms)).length < fuel + 1) :
    readMembers (fuel + 1) ((writeMembers (m :: ms)).map some ++ some '}' :: rest) =
      some (m :: ms, rest) := by
  obtain ⟨key?, v⟩ := m
  cases ms with
  | nil =>
    simp only [writeMembers, List.length_append, List.length_cons] at hfuel
    have hv := h.value v (some '}' :: rest) (by omega) (stops_cons (by decide))
    have hlast := readMembers_last key? hv
    simpa [writeMembers] using hlast
  | cons n ns =>
    rw [writeMembers_cons_cons] at hfuel ⊢
    simp only [List.length_append, List.length_cons] at hfuel
    have hv := h.value v (some ',' :: ((writeMembers (n :: ns)).map some ++ some '}' :: rest))
      (by omega) (stops_cons (by decide))
    have hmore := readMembers_more key? hv (h.members n ns rest (by omega))
    simpa using hmore

/-- The parts of a number are read as its value. -/
theorem readValue_text (fuel : Nat) (p : NumberParts) {rest : List Symbol}
    (hrest : Stops isNumberSymbol rest) :
    readValue (fuel + 1) (p.text.map some ++ rest) = some (p.value, rest) := by
  obtain ⟨c, cs, htext, hstart⟩ := p.exists_text_eq_cons
  have hnumber := readNumber_text p hrest
  rw [htext, List.map_cons, List.cons_append] at hnumber ⊢
  rw [readValue_of_startsNumber hstart, hnumber]

theorem array_succ (h : ReadsBack fuel) (items : List Json) (rest : List Symbol)
    (hfuel : (write (.array items)).length ≤ fuel + 1) :
    readValue (fuel + 1) ((write (.array items)).map some ++ rest) =
      some (.array items, rest) := by
  have hopen : ∀ cs, skipSpace (some '[' :: cs) = some '[' :: cs := skipSpace_cons (by decide)
  cases items with
  | nil => simp [write, writeItems, readValue, hopen, skipSpace_cons (c := ']') (by decide)]
  | cons v vs =>
    simp only [write, List.length_append, List.length_cons, List.length_nil] at hfuel
    have hitems := h.items v vs rest (by omega)
    -- the first item is no closing bracket
    obtain ⟨c, cs, hwrite, hspace, hclose⟩ := exists_writeItems_eq_cons v vs
    have hbody : (write (.array (v :: vs))).map some ++ rest =
        some '[' :: ((writeItems (v :: vs)).map some ++ some ']' :: rest) := by
      simp [write]
    rw [hbody, readValue, hopen]
    rw [hwrite, List.map_cons, List.cons_append] at hitems ⊢
    simp [skipSpace_cons hspace, hclose, hitems]

theorem object_succ (h : ReadsBack fuel) (members : List (Option String × Json))
    (rest : List Symbol) (hfuel : (write (.object members)).length ≤ fuel + 1) :
    readValue (fuel + 1) ((write (.object members)).map some ++ rest) =
      some (.object members, rest) := by
  have hopen : ∀ cs, skipSpace (some '{' :: cs) = some '{' :: cs := skipSpace_cons (by decide)
  cases members with
  | nil => simp [write, writeMembers, readValue, hopen, skipSpace_cons (c := '}') (by decide)]
  | cons m ms =>
    simp only [write, List.length_append, List.length_cons, List.length_nil] at hfuel
    have hmembers := h.members m ms rest (by omega)
    -- the first key is no closing brace
    obtain ⟨cs, hwrite⟩ := exists_writeMembers_eq_cons m ms
    have hbody : (write (.object (m :: ms))).map some ++ rest =
        some '{' :: ((writeMembers (m :: ms)).map some ++ some '}' :: rest) := by
      simp [write]
    rw [hbody, readValue, hopen]
    rw [hwrite, List.map_cons, List.cons_append] at hmembers ⊢
    simp [skipSpace_cons (c := '"') (by decide), hmembers]

theorem value_succ (h : ReadsBack fuel) (j : Json) (rest : List Symbol)
    (hfuel : j.write.length ≤ fuel + 1) (hrest : Stops isNumberSymbol rest) :
    readValue (fuel + 1) (j.write.map some ++ rest) = some (j, rest) := by
  cases j with
  | null => simp [write, readValue, skipSpace_cons (c := 'n') (by decide)]
  | boolean b =>
    cases b with
    | false => simp [write, readValue, skipSpace_cons (c := 'f') (by decide)]
    | true => simp [write, readValue, skipSpace_cons (c := 't') (by decide)]
  | integer negative n =>
    obtain ⟨p, htext, hvalue⟩ := exists_parts_integer negative n
    rw [htext, readValue_text fuel p hrest, hvalue]
  | real n =>
    obtain ⟨p, htext, hvalue⟩ := exists_parts_real n
    rw [htext, readValue_text fuel p hrest, hvalue]
  | string s? =>
    obtain ⟨tail, hquote, hread⟩ := readString_stringText s? rest
    rw [write, hquote, readValue, skipSpace_cons (by decide)]
    simp [hread]
  | array items => exact h.array_succ items rest hfuel
  | object members => exact h.object_succ members rest hfuel

end ReadsBack

/-! ### Whole texts -/

theorem readsBack (fuel : Nat) : ReadsBack fuel := by
  induction fuel with
  | zero => exact readsBack_zero
  | succ fuel ih => exact ⟨ih.value_succ, ih.items_succ, ih.members_succ⟩

/-- The text of a value is read back as this value. -/
theorem read?_toText (j : Json) : read? (Text.symbols j.toText) = some j := by
  have hsymbols : Text.symbols j.toText = j.write.map some := by
    rw [Text.symbols, toText, String.toList_ofList]
  have hvalue := (readsBack (j.write.length + 1)).value j [] (by omega) stops_nil
  rw [List.append_nil] at hvalue
  rw [hsymbols, read?, List.length_map, hvalue]
  rfl

end Json

end ProductSegments
