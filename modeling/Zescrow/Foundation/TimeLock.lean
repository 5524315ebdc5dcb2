import Mathlib.Data.Nat.Basic
import Mathlib.Order.Lattice

/-!
# Two-sided time locks

A deposit with two deadlines, either of which may be missing: from the first on it can be released,
from the second on it can be taken back. A missing first deadline means that a release is always
open, a missing second one that the deposit cannot be taken back.
-/

namespace Foundation

structure TimeLock where
  finishAfter : Option ℕ
  cancelAfter : Option ℕ
  deriving DecidableEq

namespace TimeLock

variable (l : TimeLock)

/-- At height `n` a release is open. -/
def FinishOpen (n : ℕ) : Prop := ∀ t, l.finishAfter = some t → t ≤ n

/-- At height `n` taking the deposit back is open. -/
def CancelOpen (n : ℕ) : Prop := ∃ t, l.cancelAfter = some t ∧ t ≤ n

/-- A release opens before the deposit can be taken back. -/
def Ordered : Prop := ∀ t, l.cancelAfter = some t → l.finishAfter.getD 0 < t

/-- At some height, not before `h`, a release is open and taking back is not. -/
def HasWindow (h : ℕ) : Prop := ∃ n, h ≤ n ∧ l.FinishOpen n ∧ ¬l.CancelOpen n

variable {l}

theorem finishOpen_iff_getD {n : ℕ} : l.FinishOpen n ↔ l.finishAfter.getD 0 ≤ n := by
  rw [FinishOpen]
  cases l.finishAfter with
  | none => simp
  | some t => simp

theorem cancelOpen_iff_le {n t : ℕ} (ht : l.cancelAfter = some t) : l.CancelOpen n ↔ t ≤ n := by
  rw [CancelOpen, ht]
  simp only [Option.some.injEq, exists_eq_left']

/-- The order of the deadlines is not enough: the window is there only for a deposit that comes
before the second one. -/
theorem hasWindow_iff {t : ℕ} (hl : l.Ordered) (ht : l.cancelAfter = some t) (h : ℕ) :
    l.HasWindow h ↔ h < t := by
  constructor
  · rintro ⟨n, hn, -, hcancel⟩
    rw [cancelOpen_iff_le ht, Nat.not_le] at hcancel
    exact hn.trans_lt hcancel
  · intro hlt
    -- The first height at which both the deposit is there and a release is open.
    refine ⟨max h (l.finishAfter.getD 0), le_max_left _ _, ?_, ?_⟩
    · exact finishOpen_iff_getD.mpr (le_max_right _ _)
    · rw [cancelOpen_iff_le ht, Nat.not_le]
      exact max_lt hlt (hl t ht)

/-! ## Zero for none -/

/-- What a deposit may be made with: it can leave again, under a condition it can be taken back, and
its release comes first. -/
structure Admissible (l : TimeLock) (conditioned : Prop) : Prop where
  path : l.finishAfter ≠ none ∨ l.cancelAfter ≠ none
  refundable : conditioned → l.cancelAfter ≠ none
  ordered : l.Ordered

theorem admissible_iff {conditioned : Prop} : l.Admissible conditioned ↔
    (l.finishAfter ≠ none ∨ l.cancelAfter ≠ none) ∧ (conditioned → l.cancelAfter ≠ none) ∧
      l.Ordered := by
  constructor
  · intro h
    exact ⟨h.path, h.refundable, h.ordered⟩
  · rintro ⟨hpath, hrefundable, hordered⟩
    exact ⟨hpath, hrefundable, hordered⟩

/-- The time lock that is left where zero stands for a missing deadline. -/
def dropZeros (l : TimeLock) : TimeLock :=
  ⟨l.finishAfter.filter (· ≠ 0), l.cancelAfter.filter (· ≠ 0)⟩

theorem filter_eq_some {t : Option ℕ} {n : ℕ} : t.filter (· ≠ 0) = some n ↔ t = some n ∧ n ≠ 0 := by
  rw [Option.filter_eq_some_iff, decide_eq_true_eq]

theorem filter_ne_none {t : Option ℕ} : t.filter (· ≠ 0) ≠ none ↔ t ≠ none ∧ t ≠ some 0 := by
  cases t with
  | none => simp
  | some n => simp

theorem getD_filter (t : Option ℕ) : (t.filter (· ≠ 0)).getD 0 = t.getD 0 := by
  cases t with
  | none => rfl
  | some n =>
    by_cases hn : n = 0
    · rw [hn]
      rfl
    · rw [filter_eq_some.mpr ⟨rfl, hn⟩]

theorem dropZeros_finishOpen {n : ℕ} : l.dropZeros.FinishOpen n ↔ l.FinishOpen n := by
  rw [finishOpen_iff_getD, finishOpen_iff_getD, dropZeros, getD_filter]

theorem dropZeros_cancelOpen (h : l.cancelAfter ≠ some 0) {n : ℕ} :
    l.dropZeros.CancelOpen n ↔ l.CancelOpen n := by
  rw [CancelOpen, CancelOpen, dropZeros]
  refine exists_congr fun t ↦ and_congr_left' ?_
  rw [filter_eq_some, and_iff_left_iff_imp]
  rintro ht rfl
  exact h ht

theorem dropZeros_ordered : l.dropZeros.Ordered ↔
    ∀ t, l.cancelAfter = some t → t ≠ 0 → l.finishAfter.getD 0 < t := by
  rw [Ordered, dropZeros, getD_filter]
  simp only [filter_eq_some, and_imp]

/-- A zero that makes a difference: it is the only deadline, or the second one after another. -/
def LoneZero (l : TimeLock) : Prop :=
  (l.finishAfter = some 0 ∧ l.cancelAfter = none) ∨
    ((∃ t, l.finishAfter = some t ∧ t ≠ 0) ∧ l.cancelAfter = some 0)

theorem Admissible.cancelAfter_ne {conditioned : Prop} (h : l.Admissible conditioned) :
    l.cancelAfter ≠ some 0 := by
  intro hzero
  exact absurd (h.ordered 0 hzero) (Nat.not_lt_zero _)

/-- **Where the zeros do not matter.** -/
theorem dropZeros_admissible_iff (l : TimeLock) (conditioned : Prop) :
    (l.Admissible conditioned ↔ l.dropZeros.Admissible conditioned) ↔
      ¬(¬conditioned ∧ l.LoneZero) := by
  rw [admissible_iff, admissible_iff, dropZeros_ordered, dropZeros, filter_ne_none, filter_ne_none,
    Ordered, LoneZero]
  cases hcancel : l.cancelAfter with
  | none =>
    cases hfinish : l.finishAfter with
    | none => simp
    | some f => by_cases hf : f = 0 <;> simp [hf]
  | some c =>
    cases hfinish : l.finishAfter with
    | none => by_cases hc : c = 0 <;> simp [hc]
    | some f => by_cases hc : c = 0 <;> by_cases hf : f = 0 <;> simp [hc, hf]

end TimeLock

end Foundation
