import Mathlib.Data.List.DropRight
import ProductSegments.Text.Basic

/-! # Trimming

  A text is *bare* when it neither starts nor ends with a blank. Trimming a
  text gives the one bare text that becomes the given one when blanks are put
  around it:

  - `exists_blanks_around_trim`: only blanks are taken off, and at the ends only.
  - `trim_blanks_around`: blanks around a bare text are taken off again.
  - `trim_eq_self_iff`: the bare texts are those that trimming leaves alone.
-/

namespace ProductSegments

namespace Text

/-- Every character is blank. -/
def AllBlank (cs : List Char) : Prop := ∀ c ∈ cs, isBlank c = true

/-- The text neither starts nor ends with a blank. -/
def Bare (cs : List Char) : Prop :=
  (∀ c ∈ cs.head?, isBlank c = false) ∧ (∀ c ∈ cs.getLast?, isBlank c = false)

instance (cs : List Char) : Decidable (AllBlank cs) :=
  decidable_of_iff (cs.all isBlank = true) List.all_eq_true

/-- The line feed is blank, so a trimmed text does not end with one. -/
theorem isBlank_lf : isBlank '\n' = true := by decide

/-! ### What trimming takes off -/

/-- Trimming takes off blanks in front and blanks behind, and nothing else. -/
theorem exists_blanks_around_trim (cs : List Char) :
    ∃ front back, cs = front ++ trim cs ++ back ∧ AllBlank front ∧ AllBlank back := by
  refine ⟨cs.takeWhile isBlank, (trimLeft cs).rtakeWhile isBlank, ?_, ?_, ?_⟩
  · have hright : trim cs ++ (trimLeft cs).rtakeWhile isBlank = trimLeft cs :=
      List.rdropWhile_append_rtakeWhile
    rw [List.append_assoc, hright]
    exact List.takeWhile_append_dropWhile.symm
  · intro c hc
    exact List.mem_takeWhile_imp hc
  · intro c hc
    exact List.mem_rtakeWhile_imp hc

/-- The characters of a trimmed text are characters of the text. -/
theorem mem_of_mem_trim {c : Char} {cs : List Char} (h : c ∈ trim cs) : c ∈ cs := by
  obtain ⟨front, back, heq, -, -⟩ := exists_blanks_around_trim cs
  rw [heq]
  simp [h]

/-- Trimming keeps every character that is not blank. -/
theorem mem_trim_of_mem {c : Char} {cs : List Char} (h : c ∈ cs) (hc : isBlank c = false) :
    c ∈ trim cs := by
  obtain ⟨front, back, heq, hfront, hback⟩ := exists_blanks_around_trim cs
  have hnot : ∀ {ds : List Char}, AllBlank ds → c ∉ ds := by
    intro ds hds hmem
    rw [hds c hmem] at hc
    cases hc
  rw [heq] at h
  simpa [hnot hfront, hnot hback] using h

/-- Nothing is left of a text exactly when all of it is blank. -/
theorem trim_eq_nil_iff {cs : List Char} : trim cs = [] ↔ AllBlank cs := by
  constructor
  · intro h
    obtain ⟨front, back, heq, hfront, hback⟩ := exists_blanks_around_trim cs
    rw [h, List.append_nil] at heq
    rw [heq]
    intro c hc
    rcases List.mem_append.mp hc with hc | hc
    · exact hfront c hc
    · exact hback c hc
  · intro h
    have hleft : trimLeft cs = [] := List.dropWhile_eq_nil_iff.mpr h
    unfold trim
    rw [hleft]
    rfl

/-! ### Bare texts -/

theorem bare_trim (cs : List Char) : Bare (trim cs) := by
  constructor
  · intro c hc
    -- what trimming on the right leaves is in front of what it takes off
    have hpre : trim cs <+: trimLeft cs := List.rdropWhile_prefix isBlank (trimLeft cs)
    obtain ⟨back, hback⟩ := hpre
    cases hcs : trim cs with
    | nil => rw [hcs] at hc; cases hc
    | cons d rest =>
      rw [hcs] at hc hback
      cases hc
      have hne : trimLeft cs ≠ [] := by rw [← hback]; simp
      have hhead : isBlank ((trimLeft cs).head hne) = false :=
        List.head_dropWhile_not isBlank hne
      simpa [← hback] using hhead
  · intro c hc
    have hne : trim cs ≠ [] := by intro h; rw [h] at hc; cases hc
    have hlast := List.rdropWhile_last_not isBlank (trimLeft cs) hne
    have hc' : c = (trim cs).getLast hne := by
      rw [List.getLast?_eq_some_getLast hne] at hc
      exact (Option.some.inj hc).symm
    rw [hc']
    exact Bool.eq_false_iff.mpr hlast

/-- Blanks around a bare text are taken off, and the bare text is left. -/
theorem trim_blanks_around {front cs back : List Char} (hfront : AllBlank front)
    (hcs : Bare cs) (hback : AllBlank back) : trim (front ++ cs ++ back) = cs := by
  cases cs with
  | nil =>
    -- without a first character the blanks in front and behind run together
    rw [trim_eq_nil_iff]
    intro c hc
    rw [List.append_nil] at hc
    rcases List.mem_append.mp hc with hc | hc
    · exact hfront c hc
    · exact hback c hc
  | cons d rest =>
    have hd : ¬ isBlank d = true := by simpa using hcs.1 d rfl
    have hleft : trimLeft (front ++ (d :: rest) ++ back) = (d :: rest) ++ back := by
      unfold trimLeft
      rw [List.append_assoc, List.dropWhile_append_of_pos hfront, List.cons_append,
        List.dropWhile_cons_of_neg hd]
    -- trimming on the right works on the reversed text
    have hreverse : ∀ c ∈ back.reverse, isBlank c = true := fun c hc =>
      hback c (List.mem_reverse.mp hc)
    have hright : (d :: rest).rdropWhile isBlank = d :: rest := by
      rw [List.rdropWhile_eq_self_iff]
      intro hne
      have hlast := hcs.2 _ (List.getLast?_eq_some_getLast hne)
      simpa using hlast
    unfold trim
    rw [hleft, trimRight, List.reverse_append, List.dropWhile_append_of_pos hreverse]
    exact hright

theorem allBlank_nil : AllBlank [] := by simp [AllBlank]

theorem allBlank_append {as bs : List Char} : AllBlank (as ++ bs) ↔ AllBlank as ∧ AllBlank bs :=
  List.forall_mem_append

/-- Blanks around a text are taken off whatever the text is. -/
theorem trim_around {front back : List Char} (hfront : AllBlank front) (hback : AllBlank back)
    (cs : List Char) : trim (front ++ cs ++ back) = trim cs := by
  obtain ⟨front', back', hcs, hfront', hback'⟩ := exists_blanks_around_trim cs
  have heq : front ++ cs ++ back = (front ++ front') ++ trim cs ++ (back' ++ back) := by
    conv => lhs; rw [hcs]
    simp only [List.append_assoc]
  rw [heq]
  exact trim_blanks_around (allBlank_append.mpr ⟨hfront, hfront'⟩) (bare_trim cs)
    (allBlank_append.mpr ⟨hback', hback⟩)

theorem trim_blanks_append {front cs : List Char} (hfront : AllBlank front) (hcs : Bare cs) :
    trim (front ++ cs) = cs := by
  simpa using trim_blanks_around hfront hcs allBlank_nil

theorem trim_append_blanks {cs back : List Char} (hcs : Bare cs) (hback : AllBlank back) :
    trim (cs ++ back) = cs := trim_blanks_around allBlank_nil hcs hback

theorem trim_eq_self_iff {cs : List Char} : trim cs = cs ↔ Bare cs := by
  constructor
  · intro h
    rw [← h]
    exact bare_trim cs
  · intro h
    exact trim_blanks_append allBlank_nil h

/-- Whatever stands between two bare texts, the whole is bare. -/
theorem bare_append {as bs : List Char} (has : Bare as) (hne : as ≠ []) (hbs : Bare bs)
    (hne' : bs ≠ []) (mid : List Char) : Bare (as ++ mid ++ bs) := by
  constructor
  · intro c hc
    rw [List.append_assoc, List.head?_append_of_ne_nil as hne] at hc
    exact has.1 c hc
  · intro c hc
    rw [List.getLast?_append_of_ne_nil _ hne'] at hc
    exact hbs.2 c hc

/-- A text without blanks is bare. -/
theorem bare_of_forall {cs : List Char} (h : ∀ c ∈ cs, isBlank c = false) : Bare cs := by
  constructor
  · intro c hc
    exact h c (List.mem_of_head? hc)
  · intro c hc
    exact h c (List.mem_of_getLast? hc)

@[simp] theorem trim_trim (cs : List Char) : trim (trim cs) = trim cs :=
  trim_eq_self_iff.mpr (bare_trim cs)

/-! ### Strings -/

theorem trimmed_eq_self_iff {s : String} : trimmed s = s ↔ Bare s.toList := by
  rw [← trim_eq_self_iff, ← toList_trimmed, String.toList_inj]

@[simp] theorem trimmed_ofList_trim (cs : List Char) :
    trimmed (String.ofList (trim cs)) = String.ofList (trim cs) := by
  rw [trimmed, String.toList_ofList, trim_trim]

end Text

end ProductSegments
