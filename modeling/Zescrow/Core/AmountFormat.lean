import Mathlib.Tactic.FieldSimp
import Zescrow.Core.Escrow
import Zescrow.Foundation.Decimal

/-!
# Displayed amounts

An amount counts the smallest unit, and is displayed with as many digits after the point as the
asset has decimals.
-/

open Foundation

namespace Zescrow

/-- The decimals an asset is displayed with, zero when unset. -/
def Asset.displayDecimals (a : Asset) : ℕ := (a.decimals.getD 0).toNat

/-- Format the raw amount as a fixed-point decimal string. -/
def Asset.formatAmount (a : Asset) : Str :=
  let decimals := a.displayDecimals
  let factor := 10 ^ decimals
  let whole := a.amount / factor
  let rem := a.amount % factor
  if decimals = 0 then Decimal.numeral whole
  else Decimal.numeral whole ++ '.' :: Decimal.padLeft decimals (Decimal.numeral rem)

/-- The digits after the point. -/
def Asset.fraction (a : Asset) : Str :=
  Decimal.padLeft a.displayDecimals (Decimal.numeral (a.amount % 10 ^ a.displayDecimals))

theorem Asset.formatAmount_of_eq_zero {a : Asset} (h : a.displayDecimals = 0) :
    a.formatAmount = Decimal.numeral a.amount := by
  rw [formatAmount]
  simp only [h, pow_zero, Nat.div_one, if_true]

theorem Asset.formatAmount_of_ne_zero {a : Asset} (h : a.displayDecimals ≠ 0) :
    a.formatAmount = Decimal.numeral (a.amount / 10 ^ a.displayDecimals) ++ '.' :: a.fraction :=
  if_neg h

theorem Asset.length_fraction {a : Asset} (h : a.displayDecimals ≠ 0) :
    a.fraction.length = a.displayDecimals :=
  Decimal.length_padLeft (Decimal.length_numeral_le (Nat.pos_of_ne_zero h)
    (Nat.mod_lt _ (Nat.pow_pos (by norm_num))))

theorem Asset.isDigits_fraction (a : Asset) : Decimal.IsDigits a.fraction :=
  Decimal.isDigits_padLeft (Decimal.isDigits_numeral _)

theorem Asset.read_formatAmount (a : Asset) :
    Decimal.read a.formatAmount = some (a.amount / 10 ^ a.displayDecimals : ℚ) := by
  by_cases h : a.displayDecimals = 0
  · have hnumeral := Decimal.isNumeral_numeral a.amount
    rw [formatAmount_of_eq_zero h, Decimal.read_digits hnumeral.1 hnumeral.2.1,
      Decimal.value_numeral, h, pow_zero, div_one]
  · have hnumeral := Decimal.isNumeral_numeral (a.amount / 10 ^ a.displayDecimals)
    have hlen := length_fraction h
    have hne : a.fraction ≠ [] := by
      intro hnil
      rw [hnil] at hlen
      exact h hlen.symm
    have hvalue : Decimal.value a.fraction = a.amount % 10 ^ a.displayDecimals := by
      rw [fraction, Decimal.value_padLeft, Decimal.value_numeral]
    rw [formatAmount_of_ne_zero h, Decimal.read_point hnumeral.1 hnumeral.2.1 hne
      a.isDigits_fraction, Decimal.value_numeral, hvalue, hlen]
    have hdiv : (a.amount : ℚ) = 10 ^ a.displayDecimals * (a.amount / 10 ^ a.displayDecimals : ℕ)
        + (a.amount % 10 ^ a.displayDecimals : ℕ) := by
      exact_mod_cast (Nat.div_add_mod a.amount (10 ^ a.displayDecimals)).symm
    have hpos : (10 : ℚ) ^ a.displayDecimals ≠ 0 := pow_ne_zero _ (by norm_num)
    congr 1
    rw [eq_div_iff hpos, hdiv, add_mul, div_mul_cancel₀ _ hpos, mul_comm]

/-- **The displayed amount is exact.** It has as many digits after its point as there are decimals,
and no point where there are none; it reads as the amount, which it therefore determines. -/
theorem Asset.formatAmount_exact (a : Asset) :
    (a.displayDecimals = 0 → Decimal.IsNumeral a.formatAmount) ∧
    (a.displayDecimals ≠ 0 → ∃ whole frac, a.formatAmount = whole ++ '.' :: frac ∧
      Decimal.IsNumeral whole ∧ frac.length = a.displayDecimals ∧ Decimal.IsDigits frac) ∧
    (∃ q, Decimal.read a.formatAmount = some q ∧ q * 10 ^ a.displayDecimals = a.amount) ∧
    ∀ b : Asset, b.displayDecimals = a.displayDecimals → b.formatAmount = a.formatAmount →
      b.amount = a.amount := by
  have hpos : (10 : ℚ) ^ a.displayDecimals ≠ 0 := pow_ne_zero _ (by norm_num)
  refine ⟨fun h ↦ ?_, fun h ↦ ?_, ?_, fun b hdecimals htext ↦ ?_⟩
  · rw [formatAmount_of_eq_zero h]
    exact Decimal.isNumeral_numeral _
  · exact ⟨_, _, formatAmount_of_ne_zero h, Decimal.isNumeral_numeral _, length_fraction h,
      a.isDigits_fraction⟩
  · exact ⟨_, a.read_formatAmount, div_mul_cancel₀ _ hpos⟩
  · have hread := b.read_formatAmount
    rw [htext, a.read_formatAmount, hdecimals, Option.some.injEq, div_left_inj' hpos] at hread
    exact_mod_cast hread.symm

/-- One and a half units of nine decimals, and the smallest unit of two. -/
example :
    (⟨.native, none, 1500000000, some 9⟩ : Asset).formatAmount = "1.500000000".toList ∧
      (⟨.native, none, 1, some 2⟩ : Asset).formatAmount = "0.01".toList := by
  constructor <;> rfl

end Zescrow
