import Mathlib.Data.List.TakeWhile
import Mathlib.Data.Nat.Digits.Lemmas

/-!
# Change of base

Digits in one base rewritten in another, most significant first. The number they spell forgets
leading zeros, so these are carried over one by one: what comes out has as many leading zeros as
what went in, and the way back is the same operation with the bases swapped.
-/

namespace Foundation.Radix

/-- The number `l` spells in base `B`. -/
def value (B : ℕ) (l : List ℕ) : ℕ := Nat.ofDigits B l.reverse

/-- The digits of `n` in base `C`; zero has none. -/
def spell (C n : ℕ) : List ℕ := (Nat.digits C n).reverse

/-- How many zeros `l` starts with. -/
def zeros (l : List ℕ) : ℕ := (l.takeWhile (· = 0)).length

/-- The digits of `l` in base `C` instead of `B`. -/
def rebase (B C : ℕ) (l : List ℕ) : List ℕ := List.replicate (zeros l) 0 ++ spell C (value B l)

variable {B C : ℕ}

theorem eq_replicate_append (l : List ℕ) :
    ∃ m, l = List.replicate (zeros l) 0 ++ m ∧ m.head? ≠ some 0 := by
  refine ⟨l.dropWhile (· = 0), ?_, fun h ↦ ?_⟩
  · have hzeros : l.takeWhile (· = 0) = List.replicate (zeros l) 0 := by
      refine List.eq_replicate_of_mem fun x hx ↦ ?_
      simpa using List.mem_takeWhile_imp hx
    rw [← hzeros, List.takeWhile_append_dropWhile]
  · have hnot := List.head?_dropWhile_not (· = 0) l
    rw [h] at hnot
    exact absurd hnot (by simp)

theorem zeros_append {k : ℕ} {m : List ℕ} (h : m.head? ≠ some 0) :
    zeros (List.replicate k 0 ++ m) = k := by
  induction k with
  | zero =>
    cases m with
    | nil => rfl
    | cons x m =>
      have hx : x ≠ 0 := fun hx ↦ h (congrArg some hx)
      rw [zeros, List.replicate_zero, List.nil_append,
        List.takeWhile_cons_of_neg (by simpa using hx)]
      rfl
  | succ k ih =>
    rw [zeros] at ih ⊢
    rw [List.replicate_succ, List.cons_append, List.takeWhile_cons_of_pos (by simp),
      List.length_cons, ih]

theorem value_append (k : ℕ) (m : List ℕ) : value B (List.replicate k 0 ++ m) = value B m := by
  rw [value, List.reverse_append, List.reverse_replicate, Nat.ofDigits_append_replicate_zero, value]

theorem value_spell (n : ℕ) : value C (spell C n) = n := by
  rw [value, spell, List.reverse_reverse, Nat.ofDigits_digits]

theorem head?_spell (n : ℕ) : (spell C n).head? ≠ some 0 := by
  rw [spell, List.head?_reverse]
  by_cases hn : n = 0
  · rw [hn, Nat.digits_zero]
    exact (Option.some_ne_none 0).symm
  · rw [List.getLast?_eq_getLast_of_ne_nil (Nat.digits_ne_nil_iff_ne_zero.mpr hn), Ne,
      Option.some.injEq]
    exact Nat.getLast_digit_ne_zero C hn

/-- Digits that start with no zero are the digits of the number they spell. -/
theorem spell_value (hB : 1 < B) {m : List ℕ} (hm : ∀ d ∈ m, d < B) (h : m.head? ≠ some 0) :
    spell B (value B m) = m := by
  rw [spell, value, Nat.digits_ofDigits B hB, List.reverse_reverse]
  · exact fun d hd ↦ hm d (List.mem_reverse.mp hd)
  · intro hne hlast
    refine h ?_
    rw [← List.getLast?_reverse, List.getLast?_eq_getLast_of_ne_nil hne, hlast]

/-- **The way back is the same operation.** -/
theorem rebase_rebase (hB : 1 < B) {l : List ℕ} (hl : ∀ d ∈ l, d < B) :
    rebase C B (rebase B C l) = l := by
  obtain ⟨m, hm, hhead⟩ := eq_replicate_append l
  have hdigits : ∀ d ∈ m, d < B := by
    intro d hd
    refine hl d ?_
    rw [hm]
    exact List.mem_append_right _ hd
  rw [rebase, rebase, zeros_append (head?_spell _), value_append, value_spell]
  conv_rhs => rw [hm]
  congr 1
  rw [hm, value_append, spell_value hB hdigits hhead]

theorem rebase_lt (hC : 1 < C) {l : List ℕ} : ∀ d ∈ rebase B C l, d < C := by
  intro d hd
  rcases List.mem_append.mp hd with hd | hd
  · rw [List.eq_of_mem_replicate hd]
    exact Nat.zero_lt_of_lt hC
  · exact Nat.digits_lt_base hC (List.mem_reverse.mp hd)

theorem rebase_replicate_zero (k : ℕ) : rebase B C (List.replicate k 0) = List.replicate k 0 := by
  have hzeros : zeros (List.replicate k 0) = k := by
    simpa only [List.append_nil] using zeros_append (k := k) (m := []) (by simp)
  have hvalue : value B (List.replicate k 0) = 0 := by
    rw [← List.append_nil (List.replicate k 0), value_append, value, List.reverse_nil,
      Nat.ofDigits_nil]
  rw [rebase, hzeros, hvalue, spell, Nat.digits_zero, List.reverse_nil, List.append_nil]

/-- Where `i` digits of the one base fit `j` digits of the other, so do `k` times as many. -/
theorem length_rebase_le (hB : 1 < B) (hC : 1 < C) (hCB : C ≤ B) {i j k : ℕ} (hij : B ^ i ≤ C ^ j)
    {l : List ℕ} (hl : ∀ d ∈ l, d < B) (hlen : l.length = i * k) :
    (rebase B C l).length ≤ j * k := by
  obtain ⟨m, hm, -⟩ := eq_replicate_append l
  have hsum : zeros l + m.length = i * k := by
    rw [← hlen]
    conv_rhs => rw [hm, List.length_append, List.length_replicate]
  have hbase : B ^ (i * k) ≤ C ^ (j * k) := by
    rw [pow_mul, pow_mul]
    exact Nat.pow_le_pow_left hij k
  have hvalue : value B l < B ^ m.length := by
    rw [hm, value_append, value, ← List.length_reverse]
    refine Nat.ofDigits_lt_base_pow_length hB fun d hd ↦ hl d ?_
    rw [hm]
    exact List.mem_append_right _ (List.mem_reverse.mp hd)
  -- A leading zero takes a digit in either base, and needs the larger one to be worth it.
  have hzeros : C ^ zeros l ≤ B ^ zeros l := Nat.pow_le_pow_left hCB _
  have hle : zeros l ≤ j * k := by
    refine (Nat.pow_le_pow_iff_right hC).mp (hzeros.trans (le_trans ?_ hbase))
    exact Nat.pow_le_pow_right (Nat.zero_lt_of_lt hB) (by omega)
  have hlt : value B l < C ^ (j * k - zeros l) := by
    refine Nat.lt_of_mul_lt_mul_left (a := C ^ zeros l) ?_
    calc C ^ zeros l * value B l ≤ B ^ zeros l * value B l := Nat.mul_le_mul_right _ hzeros
      _ < B ^ zeros l * B ^ m.length :=
        Nat.mul_lt_mul_of_pos_left hvalue (Nat.pow_pos (Nat.zero_lt_of_lt hB))
      _ = B ^ (i * k) := by rw [← pow_add, hsum]
      _ ≤ C ^ (j * k) := hbase
      _ = C ^ zeros l * C ^ (j * k - zeros l) := by rw [← pow_add, Nat.add_sub_cancel' hle]
  have hspell := (Nat.digits_length_le_iff hC _).mpr hlt
  rw [rebase, List.length_append, List.length_replicate, spell, List.length_reverse]
  omega

end Foundation.Radix
