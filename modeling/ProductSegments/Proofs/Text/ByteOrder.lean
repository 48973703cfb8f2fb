import Mathlib.Data.List.Basic
import Mathlib.Tactic.SplitIfs
import ProductSegments.Keyed.Basic

/-! # Texts in the order of their bytes

  Texts are compared character by character, by code point. Comparing their
  UTF-8 bytes instead gives the same order: the first byte tells how many there
  are for a character and grows with that number, and the bytes of characters
  of one length are the digits of their code points.

  - `Text.encodeChar_append_lt`: one character against another.
  - `Text.bytes_lt_bytes_iff`: whole texts.
  - `Keyed.ascending_bytes_keys`: the keys of a map.
-/

namespace ProductSegments

namespace Text

/-- The UTF-8 bytes of a text. -/
def bytes (s : String) : List UInt8 := s.toUTF8.data.toList

theorem bytes_eq_flatMap (s : String) : bytes s = s.toList.flatMap String.utf8EncodeChar := by
  show s.toByteArray.data.toList = _
  rw [← String.utf8Encode_toList, List.utf8Encode, List.data_toByteArray]

/-! ### One character -/

/-- Of two numbers the smaller one has the smaller leading digits or, with the same
    ones, the smaller last digit. -/
theorem div_lt_or_mod_lt {m n : Nat} (base : Nat) (h : m < n) :
    m / base < n / base ∨ m / base = n / base ∧ m % base < n % base := by
  have hm := Nat.div_add_mod m base
  have hn := Nat.div_add_mod n base
  rcases Nat.lt_or_eq_of_le (Nat.div_le_div_right (c := base) (Nat.le_of_lt h)) with hlt | heq
  · exact .inl hlt
  · right
    rw [heq] at hm
    exact ⟨heq, by omega⟩

/-- The bytes of a character come before those of a later one, whatever follows
    them. -/
theorem encodeChar_append_lt {c d : Char} (h : c < d) (rest rest' : List UInt8) :
    String.utf8EncodeChar c ++ rest < String.utf8EncodeChar d ++ rest' := by
  have hlt : c.val.toNat < d.val.toNat := h
  have hvalid : d.val.toNat < 0x110000 := by
    have hscalar := d.valid
    simp only [UInt32.isValidChar, Nat.isValidChar] at hscalar
    omega
  unfold String.utf8EncodeChar
  generalize c.val.toNat = m at hlt ⊢
  generalize d.val.toNat = n at hlt hvalid ⊢
  have hbyte : ∀ (a b : Nat) (as bs : List UInt8), UInt8.ofNat a :: as < UInt8.ofNat b :: bs ↔
      a % 256 < b % 256 ∨ a % 256 = b % 256 ∧ as < bs := by
    intro a b as bs
    rw [List.cons_lt_cons_iff, UInt8.lt_iff_toNat_lt, ← UInt8.toNat_inj, UInt8.toNat_ofNat',
      UInt8.toNat_ofNat']
  by_cases hfour : 65535 < m
  · -- both have four bytes, which are compared from the last one up
    have hm : ¬ m ≤ 127 ∧ ¬ m ≤ 2047 ∧ ¬ m ≤ 65535 := by omega
    have hn : ¬ n ≤ 127 ∧ ¬ n ≤ 2047 ∧ ¬ n ≤ 65535 := by omega
    simp only [hm, hn, if_false, List.cons_append, List.nil_append, hbyte]
    rcases div_lt_or_mod_lt 64 hlt with hlead | ⟨heq, hlast⟩
    · have hnext := div_lt_or_mod_lt 64 hlead
      omega
    · omega
  · -- with fewer bytes the comparison is linear in the code points
    dsimp only
    split_ifs
    all_goals simp only [List.cons_append, List.nil_append, hbyte]
    all_goals omega

theorem encodeChar_ne_nil (c : Char) : String.utf8EncodeChar c ≠ [] := by
  apply List.ne_nil_of_length_pos
  rw [String.length_utf8EncodeChar]
  exact c.utf8Size_pos

/-! ### Whole texts -/

theorem flatMap_encodeChar_lt {cs ds : List Char} (h : cs < ds) :
    cs.flatMap String.utf8EncodeChar < ds.flatMap String.utf8EncodeChar := by
  induction cs generalizing ds with
  | nil =>
    cases ds with
    | nil => exact absurd h (List.lt_irrefl _)
    | cons d ds =>
      obtain ⟨byte, rest, hd⟩ := List.exists_cons_of_ne_nil (encodeChar_ne_nil d)
      rw [List.flatMap_cons, hd]
      exact List.nil_lt_cons byte _
  | cons c cs ih =>
    cases ds with
    | nil => exact absurd h (List.not_lt_nil _)
    | cons d ds =>
      rw [List.flatMap_cons, List.flatMap_cons]
      rcases List.cons_lt_cons_iff.mp h with hlt | ⟨rfl, hlt⟩
      · exact encodeChar_append_lt hlt _ _
      · exact List.append_left_lt (ih hlt)

/-- **Order of bytes.** The bytes of one text come before those of another exactly
    when the one text comes before the other. -/
theorem bytes_lt_bytes_iff {s t : String} : bytes s < bytes t ↔ s < t := by
  have hmono : ∀ {s t : String}, s < t → bytes s < bytes t := by
    intro s t h
    rw [bytes_eq_flatMap, bytes_eq_flatMap]
    exact flatMap_encodeChar_lt (String.lt_iff.mp h)
  constructor
  · -- the order of texts is total, and the other two cases would turn the bytes round
    intro h
    by_cases heq : s = t
    · rw [heq] at h
      exact absurd h (List.lt_irrefl _)
    · apply Decidable.byContradiction
      intro hnot
      exact List.lt_asymm h (hmono (Keyed.lt_of_not_lt_of_ne hnot heq))
  · exact hmono

end Text

/-- The keys of a map are in strictly ascending order of their bytes. -/
theorem Keyed.ascending_bytes_keys {α : Type} (m : Keyed α) :
    (m.keys.map Text.bytes).Pairwise (· < ·) := by
  rw [Keyed.keys, List.pairwise_map, List.pairwise_map]
  exact m.ascending.imp Text.bytes_lt_bytes_iff.mpr

end ProductSegments
