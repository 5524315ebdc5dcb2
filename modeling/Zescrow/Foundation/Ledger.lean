import Mathlib.Algebra.BigOperators.Finprod
import Mathlib.Algebra.Order.BigOperators.Group.Finset

/-!
# Balances

A ledger is a function that assigns a balance to every holder. Units move from one holder to
another: the total stays the same, the two balances change by the amount moved, and no other does.
No two balances exceed the total, so where the total fits a machine word, so does every sum of two
of them.
-/

namespace Foundation

variable {α : Type*} [DecidableEq α]

theorem sum_update_add [Fintype α] (f : α → ℕ) (a : α) (v : ℕ) :
    ∑ x, Function.update f a v x + f a = ∑ x, f x + v := by
  -- Both sums are split at `a`; the rest of them is the same.
  have hnew : ∑ x, Function.update f a v x = v + ∑ x ∈ Finset.univ \ {a}, f x :=
    Finset.sum_update_of_mem (Finset.mem_univ a) f v
  have hold : ∑ x, f x = f a + ∑ x ∈ Finset.univ \ {a}, f x :=
    Finset.sum_eq_add_sum_sdiff_singleton_of_mem (Finset.mem_univ a) f
  rw [hnew, hold]
  omega

namespace Ledger

/-- The sum of all balances. -/
noncomputable def total {β : Type*} (f : β → ℕ) : ℕ := ∑ᶠ b, f b

/-- `n` units move from `a` to `b`. -/
def move (f : α → ℕ) (a b : α) (n : ℕ) : α → ℕ :=
  let debited := Function.update f a (f a - n)
  Function.update debited b (debited b + n)

variable {f : α → ℕ} {a b : α} {n : ℕ}

theorem move_source (h : a ≠ b) : move f a b n a = f a - n := by
  rw [move, Function.update_of_ne h, Function.update_self]

theorem move_destination (h : a ≠ b) : move f a b n b = f b + n := by
  rw [move, Function.update_self, Function.update_of_ne h.symm]

theorem move_other {c : α} (ha : c ≠ a) (hb : c ≠ b) : move f a b n c = f c := by
  rw [move, Function.update_of_ne hb, Function.update_of_ne ha]

theorem le_move {c : α} (h : c ≠ a) : f c ≤ move f a b n c := by
  by_cases hb : c = b
  · subst hb
    rw [move_destination h.symm]
    exact Nat.le_add_right _ _
  · rw [move_other h hb]

section Total

variable [Finite α]

theorem total_move (h : n ≤ f a) : total (move f a b n) = total f := by
  obtain ⟨_⟩ := nonempty_fintype α
  rw [total, total, finsum_eq_sum_of_fintype, finsum_eq_sum_of_fintype]
  have hdebit := sum_update_add f a (f a - n)
  have hcredit := sum_update_add (Function.update f a (f a - n)) b
    (Function.update f a (f a - n) b + n)
  rw [move]
  omega

theorem add_le_total (h : a ≠ b) : f a + f b ≤ total f := by
  obtain ⟨_⟩ := nonempty_fintype α
  rw [total, finsum_eq_sum_of_fintype, ← Finset.sum_pair h]
  exact Finset.sum_le_univ_sum_of_nonneg fun x ↦ Nat.zero_le (f x)

end Total

end Ledger

end Foundation
