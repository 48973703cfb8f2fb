import ProductSegments.Instant.Rfc3339
import ProductSegments.Proofs.Decimal.Layout

/-! # Instants read back

  The text of an instant is read back as the same instant, down to the
  nanosecond and for every year, leap seconds included. Its numbers have a
  width each, and what stands behind a number is no digit, so every reader
  stops where the writer has.

  - `Instant.readNumber_padded` reads a number of a given width.
  - `readDate_text`, `readFraction_fractionText` and `ofLocal?_zero` are about
    the parts.
  - `Instant.read?_text`: the whole text is read back.
-/

namespace ProductSegments

namespace Instant

open Decimal (padded)
open Text (Stops stops_cons)

/-! ### Numbers of a width -/

theorem isBlank_of_isDigit {c : Char} (h : c.isDigit = true) : Text.isBlank c = false := by
  have hdigits : ∀ k < 10, Text.isBlank (Char.ofNat (48 + k)) = false := by decide
  obtain ⟨k, hk, rfl⟩ := Numeral.exists_eq_of_isDigit h
  exact hdigits k hk

theorem trimLeft_cons {c : Char} (h : Text.isBlank c = false) (cs : List Char) :
    Text.trimLeft (c :: cs) = c :: cs := by
  unfold Text.trimLeft
  rw [List.dropWhile_cons_of_neg (by simp [h])]

theorem exists_padded_eq_cons (width n : Nat) :
    ∃ d ds, padded width n = d :: ds ∧ d.isDigit = true := by
  obtain ⟨d, ds, hds⟩ := List.exists_cons_of_ne_nil (Decimal.padded_ne_nil width n)
  exact ⟨d, ds, hds, Decimal.isDigit_of_mem_padded (hds ▸ List.mem_cons_self)⟩

variable {width n : Nat} {rest : List Char}

/-- There are no blanks in front of a number. -/
theorem trimLeft_padded_append (width n : Nat) (rest : List Char) :
    Text.trimLeft (padded width n ++ rest) = padded width n ++ rest := by
  obtain ⟨d, ds, hds, hd⟩ := exists_padded_eq_cons width n
  rw [hds, List.cons_append, trimLeft_cons (isBlank_of_isDigit hd)]

theorem takeWhile_padded_append (width n : Nat) (hrest : Stops Char.isDigit rest) :
    (padded width n ++ rest).takeWhile Char.isDigit = padded width n :=
  Text.takeWhile_append_of_stops (fun _ hc => Decimal.isDigit_of_mem_padded hc) hrest

/-- A number is read with as many digits as it was written with. -/
theorem readNumber_padded (hwidth : 0 < width) (h : n < 10 ^ width)
    (hrest : Stops Char.isDigit rest) :
    readNumber width (padded width n ++ rest) = some (n, rest) := by
  have hlength := Decimal.length_padded hwidth h
  unfold readNumber
  simp only [trimLeft_padded_append, takeWhile_padded_append width n hrest]
  rw [List.take_of_length_le (by omega), if_neg (Decimal.padded_ne_nil width n),
    List.drop_left]
  exact congrArg (fun k => some (k, rest)) (Decimal.digitsValue_padded width n)

theorem passMark_cons {mark : Char} (h : Text.isBlank mark = false) (cs : List Char) :
    passMark mark (mark :: cs) = some cs := by
  simp only [passMark, trimLeft_cons h, if_true]

/-! ### Dates -/

/-- A year is read with its sign, of which there is none from 0 to 9999. -/
theorem readYear_yearText (year : Int) (hrest : Stops Char.isDigit rest) :
    readYear (yearText year ++ rest) = some (year, rest) := by
  have hdigits := takeWhile_padded_append 4 year.natAbs hrest
  have hvalue : Nat.ofDigitChars 10 (padded 4 year.natAbs) 0 = year.natAbs :=
    Decimal.digitsValue_padded 4 year.natAbs
  have hne := Decimal.padded_ne_nil 4 year.natAbs
  unfold yearText
  by_cases hneg : year < 0
  · have hyear : -(year.natAbs : Int) = year := by omega
    rw [if_pos hneg, List.cons_append, readYear, trimLeft_cons (by decide)]
    simp only [hdigits, if_neg hne, hvalue, List.drop_left, Option.map_some, hyear]
  by_cases hbig : 9999 < year
  · have hyear : (year.natAbs : Int) = year := by omega
    rw [if_neg hneg, if_pos hbig, List.cons_append, readYear, trimLeft_cons (by decide)]
    simp only [hdigits, if_neg hne, hvalue, List.drop_left, Option.map_some, hyear]
  · have hyear : (year.natAbs : Int) = year := by omega
    have hnumber : readNumber 4 (padded 4 year.natAbs ++ rest) = some (year.natAbs, rest) :=
      readNumber_padded (by decide) (by omega) hrest
    obtain ⟨d, ds, hds, hd⟩ := exists_padded_eq_cons 4 year.natAbs
    -- the first digit is no sign
    have hminus : d ≠ '-' := by
      rintro rfl
      exact absurd hd (by decide)
    have hplus : d ≠ '+' := by
      rintro rfl
      exact absurd hd (by decide)
    rw [if_neg hneg, if_neg hbig, readYear, trimLeft_padded_append]
    rw [hds, List.cons_append] at hnumber ⊢
    simp [hminus, hplus, hnumber, hyear]

theorem daysInMonth_le (year : Int) (month : Nat) : daysInMonth year month ≤ 31 := by
  unfold daysInMonth
  split
  · split <;> decide
  · split <;> decide

theorem ofNumbers?_date (d : Date) : Date.ofNumbers? d.year d.month d.day = some d :=
  dif_pos d.isDate

/-- A date is read up to the letter that ends it. -/
theorem readDate_text (d : Date) (rest : List Char) :
    readDate (yearText d.year ++ '-' :: (padded 2 d.month ++ '-' :: (padded 2 d.day ++
      'T' :: rest))) = some (d, rest) := by
  obtain ⟨-, -, -, hmonth, -, hday⟩ := d.isDate
  have hmonths := daysInMonth_le d.year d.month
  have hmark : ∀ cs, passMark '-' ('-' :: cs) = some cs := passMark_cons (by decide)
  unfold readDate
  rw [readYear_yearText d.year (stops_cons (by decide))]
  simp only [Option.bind_eq_bind, Option.bind_some, hmark]
  rw [readNumber_padded (by decide) (by omega) (stops_cons (by decide))]
  simp only [Option.bind_some, hmark]
  rw [readNumber_padded (by decide) (by omega) (stops_cons (by decide))]
  simp [ofNumbers?_date]

/-! ### Fractions -/

theorem nanoseconds_padded (hwidth : 0 < width) (hnine : width ≤ 9) (h : n < 10 ^ width) :
    nanoseconds (padded width n) = n * 10 ^ (9 - width) := by
  have hlength := Decimal.length_padded hwidth h
  have hkept : (padded width n).take 9 = padded width n := List.take_of_length_le (by omega)
  unfold nanoseconds
  simp only [hkept, hlength]
  exact congrArg (· * 10 ^ (9 - width)) (Decimal.digitsValue_padded width n)

/-- Up to nine digits are read in units of the place of the last of them. -/
theorem readFraction_padded (hwidth : 0 < width) (hnine : width ≤ 9) (h : n < 10 ^ width)
    (hrest : Stops Char.isDigit rest) :
    readFraction ('.' :: padded width n ++ rest) = some (n * 10 ^ (9 - width), rest) := by
  have hdrop : (padded width n ++ rest).dropWhile Char.isDigit = rest :=
    Text.dropWhile_append_of_stops (fun _ hc => Decimal.isDigit_of_mem_padded hc) hrest
  rw [List.cons_append, readFraction]
  simp only [takeWhile_padded_append width n hrest, if_neg (Decimal.padded_ne_nil width n), hdrop,
    nanoseconds_padded hwidth hnine h]

/-- The groups of digits that are left out are zeros. -/
theorem readFraction_fractionText (h : n < 1000000000) (hrest : Stops Char.isDigit rest)
    (hpoint : rest.head? ≠ some '.') : readFraction (fractionText n ++ rest) = some (n, rest) := by
  unfold fractionText
  split
  · next hzero =>
    rw [hzero, List.nil_append, readFraction]
    rintro cs rfl
    exact hpoint rfl
  split
  · have hmillis : n / 1000000 * 10 ^ (9 - 3) = n := by omega
    rw [readFraction_padded (by decide) (by decide) (by omega) hrest, hmillis]
  split
  · have hmicros : n / 1000 * 10 ^ (9 - 6) = n := by omega
    rw [readFraction_padded (by decide) (by decide) (by omega) hrest, hmicros]
  · rw [readFraction_padded (by decide) (by decide) h hrest]
    simp

theorem stops_fractionText_append (n : Nat) (hrest : Stops Char.isDigit rest) :
    Stops Char.isDigit (fractionText n ++ rest) := by
  unfold fractionText
  split
  · exact hrest
  · repeat' split
    all_goals exact stops_cons (by decide)

/-! ### Whole texts -/

theorem below?_val {bound : Nat} (i : Fin bound) : below? bound i.val = some i := dif_pos i.isLt

/-- A clock that shows UTC is taken at its word. -/
theorem ofLocal?_zero (i : Instant) :
    ofLocal? i.date i.minute i.second i.nanosecond 0 = some i := by
  have hminute := i.minute.isLt
  have hmod : (((i.minute.val : Int) - 0) % (minutesPerDay : Int)).toNat = i.minute.val := by
    unfold minutesPerDay at hminute ⊢
    omega
  unfold ofLocal?
  simp only [hmod]
  rw [if_neg (by omega), if_neg (by omega)]
  rfl

/-- The text of an instant is read back as this instant. -/
theorem read?_text (i : Instant) : read? i.text = some i := by
  have hminute : i.minute.val < 1440 := i.minute.isLt
  have hsecond := i.second.isLt
  have hnanosecond := i.nanosecond.isLt
  have hclock : 60 * (i.minute.val / 60) + i.minute.val % 60 = i.minute.val := by omega
  have hmark : ∀ cs, passMark ':' (':' :: cs) = some cs := passMark_cons (by decide)
  have hzone : readZone ['Z'] = some (0, []) := by decide
  unfold read? text
  simp only [List.append_assoc, List.cons_append]
  rw [readDate_text]
  simp only [Option.bind_eq_bind, Option.bind_some]
  rw [readNumber_padded (by decide) (by omega) (stops_cons (by decide))]
  simp only [Option.bind_some, hmark]
  rw [readNumber_padded (by decide) (by omega) (stops_cons (by decide))]
  simp only [Option.bind_some, hmark]
  rw [readNumber_padded (by decide) (by omega)
    (stops_fractionText_append _ (stops_cons (by decide)))]
  simp only [Option.bind_some]
  rw [readFraction_fractionText hnanosecond (stops_cons (by decide)) (by decide)]
  simp only [Option.bind_some, hzone, hclock]
  rw [if_neg (by simp [Text.trimLeft]; omega)]
  simp only [below?_val, Option.bind_some, ofLocal?_zero]

end Instant

end ProductSegments
