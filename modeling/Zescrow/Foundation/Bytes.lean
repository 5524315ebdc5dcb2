import Mathlib.Data.Nat.Digits.Defs
import Mathlib.Data.Nat.Digits.Lemmas

/-!
# Byte strings and fixed-width numbers

A byte string is a list, and an array of `n` bytes is a byte string that carries its length. A
number is written in `w` bytes least significant first by `toLE` and most significant first by
`toBE`; `ofLE` and `ofBE` read it back. Reading is `Nat.ofDigits` at base `256`, so the bounds and
the positional arithmetic are Mathlib's.

Writing at a width the number does not fit keeps only its low bytes, which is why the round trip
`ofBE_toBE` asks for a bound, while the other one, `toBE_ofBE`, needs none.
-/

namespace Foundation

/-- A byte string. -/
abbrev Bytes := List UInt8

/-- A byte string of exactly `n` bytes. -/
abbrev FixedBytes (n : ℕ) := {b : Bytes // b.length = n}

/-- The `n` zero bytes. -/
def FixedBytes.zero (n : ℕ) : FixedBytes n := ⟨List.replicate n 0, List.length_replicate⟩

/-- The bytes of an ASCII literal. -/
def ascii (s : String) : Bytes := s.toList.map fun c ↦ UInt8.ofNat c.toNat

/-! ## Little-endian -/

/-- The low `w` bytes of `n`, least significant first. -/
def toLE : ℕ → ℕ → Bytes
  | 0, _ => []
  | w + 1, n => UInt8.ofNat n :: toLE w (n / 256)

/-- The number a byte string spells, least significant byte first. -/
def ofLE (b : Bytes) : ℕ := Nat.ofDigits 256 (b.map UInt8.toNat)

@[simp] theorem length_toLE (w n : ℕ) : (toLE w n).length = w := by
  induction w generalizing n with
  | zero => rfl
  | succ w ih => rw [toLE, List.length_cons, ih]

@[simp] theorem ofLE_nil : ofLE [] = 0 := rfl

theorem ofLE_cons (x : UInt8) (b : Bytes) : ofLE (x :: b) = x.toNat + 256 * ofLE b := by
  rw [ofLE, List.map_cons, Nat.ofDigits_cons, ofLE]

theorem ofLE_lt (b : Bytes) : ofLE b < 256 ^ b.length := by
  have h := Nat.ofDigits_lt_base_pow_length (b := 256) (l := b.map UInt8.toNat) (by norm_num) (by
    intro x hx
    obtain ⟨y, -, rfl⟩ := List.mem_map.mp hx
    exact y.toNat_lt)
  rwa [List.length_map] at h

theorem ofLE_toLE {w n : ℕ} (h : n < 256 ^ w) : ofLE (toLE w n) = n := by
  induction w generalizing n with
  | zero =>
    rw [pow_zero] at h
    rw [toLE, ofLE_nil]
    omega
  | succ w ih =>
    have hdiv : n / 256 < 256 ^ w := by
      rw [pow_succ] at h
      exact Nat.div_lt_of_lt_mul (by rwa [mul_comm])
    have hbyte : (UInt8.ofNat n).toNat = n % 256 := by simp
    rw [toLE, ofLE_cons, ih hdiv, hbyte]
    exact Nat.mod_add_div n 256

theorem toLE_ofLE (b : Bytes) : toLE b.length (ofLE b) = b := by
  induction b with
  | nil => rfl
  | cons x b ih =>
    have hx : x.toNat < 256 := x.toNat_lt
    have hmod : UInt8.ofNat (x.toNat + 256 * ofLE b) = x := by
      rw [← UInt8.toNat_inj]
      simp
    have hdiv : (x.toNat + 256 * ofLE b) / 256 = ofLE b := by omega
    rw [List.length_cons, toLE, ofLE_cons, hmod, hdiv, ih]

theorem toLE_ofLE_of_length {b : Bytes} {w : ℕ} (h : b.length = w) : toLE w (ofLE b) = b := by
  rw [← h, toLE_ofLE]

/-! ## Big-endian -/

/-- The low `w` bytes of `n`, most significant first. -/
def toBE (w n : ℕ) : Bytes := (toLE w n).reverse

/-- The number a byte string spells, most significant byte first. -/
def ofBE (b : Bytes) : ℕ := ofLE b.reverse

@[simp] theorem length_toBE (w n : ℕ) : (toBE w n).length = w := by
  rw [toBE, List.length_reverse, length_toLE]

theorem ofBE_snoc (b : Bytes) (x : UInt8) : ofBE (b ++ [x]) = ofBE b * 256 + x.toNat := by
  rw [ofBE, List.reverse_append, List.reverse_singleton, List.singleton_append, ofLE_cons, ofBE]
  ring

theorem ofBE_lt (b : Bytes) : ofBE b < 256 ^ b.length := by
  have h := ofLE_lt b.reverse
  rwa [List.length_reverse] at h

theorem ofBE_toBE {w n : ℕ} (h : n < 256 ^ w) : ofBE (toBE w n) = n := by
  rw [ofBE, toBE, List.reverse_reverse, ofLE_toLE h]

theorem toBE_ofBE (b : Bytes) : toBE b.length (ofBE b) = b := by
  rw [toBE, ofBE, ← List.length_reverse, toLE_ofLE, List.reverse_reverse]

theorem toBE_ofBE_of_length {b : Bytes} {w : ℕ} (h : b.length = w) : toBE w (ofBE b) = b := by
  rw [← h, toBE_ofBE]

theorem toBE_inj {w n m : ℕ} (hn : n < 256 ^ w) (hm : m < 256 ^ w) :
    toBE w n = toBE w m ↔ n = m := by
  refine ⟨fun h ↦ ?_, fun h ↦ h ▸ rfl⟩
  rw [← ofBE_toBE hn, h, ofBE_toBE hm]

theorem toLE_add {w n : ℕ} (k : ℕ) (h : n < 256 ^ w) :
    toLE (w + k) n = toLE w n ++ List.replicate k 0 := by
  induction w generalizing n with
  | zero =>
    have hn : n = 0 := by
      rw [pow_zero] at h
      omega
    subst hn
    rw [Nat.zero_add, toLE, List.nil_append]
    induction k with
    | zero => rfl
    | succ k ih => rw [toLE, Nat.zero_div, ih, List.replicate_succ]; rfl
  | succ w ih =>
    have hdiv : n / 256 < 256 ^ w := by
      rw [pow_succ] at h
      exact Nat.div_lt_of_lt_mul (by rwa [mul_comm])
    rw [Nat.add_right_comm, toLE, toLE, ih hdiv, List.cons_append]

theorem toBE_add {w n : ℕ} (k : ℕ) (h : n < 256 ^ w) :
    toBE (k + w) n = List.replicate k 0 ++ toBE w n := by
  rw [toBE, Nat.add_comm, toLE_add k h, List.reverse_append, List.reverse_replicate, toBE]

theorem append_inj_of_length {a b c d : Bytes} (h : a.length = c.length) :
    a ++ b = c ++ d ↔ a = c ∧ b = d :=
  ⟨fun heq ↦ List.append_inj heq h, fun ⟨h₁, h₂⟩ ↦ by rw [h₁, h₂]⟩

end Foundation
