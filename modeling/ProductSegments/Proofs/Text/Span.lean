import Mathlib.Data.List.Basic

/-! # Rows of one kind

  Text is split by taking the longest row of characters of one kind off its
  front. Such a row is recognised by what stops it: it is followed by a
  character of another kind, or by nothing.

  - `Stops p rest`: what follows does not continue a row of characters in `p`.
  - `takeWhile_append_of_stops` and `dropWhile_append_of_stops`: a row that is
    stopped is split off as a whole.
  - `append_inj_of_stops` and `append_cons_inj_of_last`: a list can be cut only once
    at the first element of another kind, or at the last occurrence of an element.
-/

namespace ProductSegments

namespace Text

variable {α : Type} {p : α → Bool} {row rest : List α}

/-- The list does not start with an element of the kind. -/
def Stops (p : α → Bool) (rest : List α) : Prop := ∀ c ∈ rest.head?, p c = false

theorem stops_nil : Stops p [] := by simp [Stops]

theorem stops_cons {c : α} (h : p c = false) : Stops p (c :: rest) := by simp [Stops, h]

/-- What is left behind a longest row does not continue it. -/
theorem stops_dropWhile (p : α → Bool) (cs : List α) : Stops p (cs.dropWhile p) := by
  intro c hc
  have hhead := List.head?_dropWhile_not p cs
  rw [Option.mem_def.mp hc] at hhead
  exact hhead

theorem takeWhile_append_of_stops (hrow : ∀ c ∈ row, p c = true) (hrest : Stops p rest) :
    (row ++ rest).takeWhile p = row := by
  rw [List.takeWhile_append_of_pos hrow]
  cases rest with
  | nil => simp
  | cons c rest => simp [hrest c rfl]

theorem dropWhile_append_of_stops (hrow : ∀ c ∈ row, p c = true) (hrest : Stops p rest) :
    (row ++ rest).dropWhile p = rest := by
  rw [List.dropWhile_append_of_pos hrow]
  cases rest with
  | nil => rfl
  | cons c rest => simp [hrest c rfl]

/-- A list has one longest row in front. -/
theorem append_inj_of_stops {row' rest' : List α} (hrow : ∀ c ∈ row, p c = true)
    (hrest : Stops p rest) (hrow' : ∀ c ∈ row', p c = true) (hrest' : Stops p rest')
    (h : row ++ rest = row' ++ rest') : row = row' ∧ rest = rest' := by
  constructor
  · rw [← takeWhile_append_of_stops hrow hrest, h, takeWhile_append_of_stops hrow' hrest']
  · rw [← dropWhile_append_of_stops hrow hrest, h, dropWhile_append_of_stops hrow' hrest']

/-- A list has one last occurrence of an element. -/
theorem append_cons_inj_of_last [DecidableEq α] {c : α} {as bs as' bs' : List α} (hbs : c ∉ bs)
    (hbs' : c ∉ bs') (h : as ++ c :: bs = as' ++ c :: bs') : as = as' ∧ bs = bs' := by
  -- read from its end, the list starts with a row of other elements
  have hreverse : bs.reverse ++ c :: as.reverse = bs'.reverse ++ c :: as'.reverse := by
    simpa using congrArg List.reverse h
  have hstop : ∀ ds : List α, Stops (· != c) (c :: ds) := fun _ => stops_cons (by simp)
  have hrow : ∀ {ds : List α}, c ∉ ds → ∀ d ∈ ds.reverse, (d != c) = true := by
    intro ds hds d hd
    rw [bne_iff_ne]
    rintro rfl
    exact hds (List.mem_reverse.mp hd)
  obtain ⟨hback, hfront⟩ :=
    append_inj_of_stops (hrow hbs) (hstop _) (hrow hbs') (hstop _) hreverse
  exact ⟨List.reverse_inj.mp (List.cons.inj hfront).2, List.reverse_inj.mp hback⟩

end Text

end ProductSegments
