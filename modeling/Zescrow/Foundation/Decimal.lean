import Mathlib.Algebra.Order.Field.Rat
import Zescrow.Foundation.TextEncoding

/-!
# Decimal texts

Natural numbers in base ten, and fixed-point decimals read as rationals. A numeral is written
without superfluous zeros in front; the digits after a point may start with any number of them, and
that is what padding on the left puts there.
-/

namespace Foundation.Decimal

def alphabet : Alphabet := ⟨"0123456789".toList, by decide⟩

/-- Decimal digits and nothing else. -/
def IsDigits (s : List Char) : Prop := ∀ c ∈ s, c ∈ alphabet.chars

instance (s : List Char) : Decidable (IsDigits s) :=
  List.decidableBAll (· ∈ alphabet.chars) s

/-- The digits of a number, without superfluous zeros in front. -/
def IsNumeral (s : List Char) : Prop := s ≠ [] ∧ IsDigits s ∧ (s.head? = some '0' → s = ['0'])

instance (s : List Char) : Decidable (IsNumeral s) :=
  inferInstanceAs (Decidable (s ≠ [] ∧ IsDigits s ∧ (s.head? = some '0' → s = ['0'])))

/-- The number that digits spell. -/
def value (s : List Char) : ℕ := Radix.value 10 (s.map alphabet.digit)

/-- The numeral of a number. -/
def numeral (n : ℕ) : List Char := if n = 0 then ['0'] else (Radix.spell 10 n).map alphabet.char

/-- `s` with zeros in front, to a width of `w` characters at least. -/
def padLeft (w : ℕ) (s : List Char) : List Char := List.replicate (w - s.length) '0' ++ s

/-- The number a fixed-point decimal stands for. -/
def read (s : List Char) : Option ℚ :=
  let whole := s.takeWhile (· ≠ '.')
  match s.dropWhile (· ≠ '.') with
  | [] => if whole ≠ [] ∧ IsDigits whole then some (value whole : ℚ) else none
  | _ :: frac =>
    if whole ≠ [] ∧ IsDigits whole ∧ frac ≠ [] ∧ IsDigits frac then
      some ((value whole : ℚ) + value frac / 10 ^ frac.length)
    else none

/-! ## Numerals -/

theorem isDigits_map_char {l : List ℕ} (hl : ∀ d ∈ l, d < 10) : IsDigits (l.map alphabet.char) := by
  intro c hc
  obtain ⟨d, hd, rfl⟩ := List.mem_map.mp hc
  exact alphabet.char_mem (hl d hd)

theorem spell_lt {n : ℕ} : ∀ d ∈ Radix.spell 10 n, d < 10 := fun _ hd ↦
  Nat.digits_lt_base (by norm_num) (List.mem_reverse.mp hd)

theorem isDigits_numeral (n : ℕ) : IsDigits (numeral n) := by
  rw [numeral]
  split
  · exact List.forall_mem_singleton.mpr (by decide)
  · exact isDigits_map_char spell_lt

theorem value_numeral (n : ℕ) : value (numeral n) = n := by
  rw [numeral]
  split
  · next h =>
    rw [h]
    decide
  · rw [value, alphabet.map_digit_char spell_lt, Radix.value_spell]

theorem isNumeral_numeral (n : ℕ) : IsNumeral (numeral n) := by
  refine ⟨?_, isDigits_numeral n, ?_⟩
  · intro hnil
    rw [numeral] at hnil
    split at hnil
    · exact List.cons_ne_nil _ _ hnil
    · next h =>
      rw [List.map_eq_nil_iff, Radix.spell, List.reverse_eq_nil_iff,
        Nat.digits_eq_nil_iff_eq_zero] at hnil
      exact h hnil
  · intro hzero
    by_cases h : n = 0
    · rw [numeral, if_pos h]
    · rw [numeral, if_neg h, List.head?_map] at hzero
      obtain ⟨d, hd, hchar⟩ := Option.map_eq_some_iff.mp hzero
      -- The first digit is not zero, and only zero is written `0`.
      have hdigit := alphabet.digit_char (spell_lt d (List.mem_of_head? hd))
      rw [hchar] at hdigit
      have hd0 : d = 0 := hdigit.symm.trans (by decide)
      exact absurd (hd0 ▸ hd) (Radix.head?_spell n)

theorem length_numeral_le {n w : ℕ} (hw : 0 < w) (hn : n < 10 ^ w) : (numeral n).length ≤ w := by
  rw [numeral]
  split
  · exact hw
  · rw [List.length_map, Radix.spell, List.length_reverse]
    exact (Nat.digits_length_le_iff (by norm_num) _).mpr hn

/-! ## Padding -/

theorem length_padLeft {w : ℕ} {s : List Char} (h : s.length ≤ w) : (padLeft w s).length = w := by
  rw [padLeft, List.length_append, List.length_replicate]
  omega

theorem isDigits_padLeft {w : ℕ} {s : List Char} (h : IsDigits s) : IsDigits (padLeft w s) := by
  intro c hc
  rcases List.mem_append.mp hc with hc | hc
  · rw [List.eq_of_mem_replicate hc]
    decide
  · exact h c hc

theorem value_padLeft (w : ℕ) (s : List Char) : value (padLeft w s) = value s := by
  have hzero : alphabet.digit '0' = 0 := by decide
  rw [value, padLeft, List.map_append, List.map_replicate, hzero, Radix.value_append, value]

/-! ## Reading -/

theorem point_not_mem {s : List Char} (h : IsDigits s) : '.' ∉ s := fun hmem ↦
  absurd (h '.' hmem) (by decide)

theorem ne_point {s : List Char} (h : IsDigits s) {c : Char} (hc : c ∈ s) :
    decide (c ≠ '.') = true := by
  rw [decide_eq_true_eq]
  rintro rfl
  exact point_not_mem h hc

theorem read_digits {s : List Char} (hne : s ≠ []) (h : IsDigits s) :
    read s = some (value s : ℚ) := by
  have htake : s.takeWhile (· ≠ '.') = s :=
    List.takeWhile_eq_self_iff.mpr fun c hc ↦ ne_point h hc
  have hdrop : s.dropWhile (· ≠ '.') = [] :=
    List.dropWhile_eq_nil_iff.mpr fun c hc ↦ ne_point h hc
  rw [read]
  simp only [htake, hdrop]
  rw [if_pos ⟨hne, h⟩]

theorem read_point {whole frac : List Char} (hwhole : whole ≠ []) (hw : IsDigits whole)
    (hfrac : frac ≠ []) (hf : IsDigits frac) :
    read (whole ++ '.' :: frac) = some ((value whole : ℚ) + value frac / 10 ^ frac.length) := by
  have htake : (whole ++ '.' :: frac).takeWhile (· ≠ '.') = whole := by
    rw [List.takeWhile_append_of_pos fun c hc ↦ ne_point hw hc,
      List.takeWhile_cons_of_neg (by simp), List.append_nil]
  have hdrop : (whole ++ '.' :: frac).dropWhile (· ≠ '.') = '.' :: frac := by
    rw [List.dropWhile_append_of_pos fun c hc ↦ ne_point hw hc,
      List.dropWhile_cons_of_neg (by simp)]
  rw [read]
  simp only [htake, hdrop]
  rw [if_pos ⟨hwhole, hw, hfrac, hf⟩]

end Foundation.Decimal
