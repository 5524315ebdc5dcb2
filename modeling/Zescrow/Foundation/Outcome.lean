import Mathlib.Logic.Basic

/-!
# Fallible computations

A computation that may fail is an `Except`, and its failure path is an `ensure` or a failing call
sequenced by `bind`. The lemmas below say when such a chain succeeds and when it fails; they are
what lets a long guarded function be read off as one conjunction of its guards.
-/

namespace Foundation

universe u v

variable {ε : Type u} {α β : Type v}

/-- Succeeds exactly when `c` holds, and fails with `e` otherwise. -/
def ensure (c : Prop) [Decidable c] (e : ε) : Except ε Unit :=
  if c then .ok () else .error e

@[simp] theorem ensure_eq_ok {c : Prop} [Decidable c] {e : ε} {u : Unit} :
    ensure c e = .ok u ↔ c := by
  by_cases h : c <;> simp [ensure, h]

@[simp] theorem ensure_eq_error {c : Prop} [Decidable c] {e e' : ε} :
    ensure c e = .error e' ↔ ¬c ∧ e = e' := by
  by_cases h : c <;> simp [ensure, h]

@[simp] theorem ok_bind (a : α) (f : α → Except ε β) : (Except.ok a >>= f) = f a := rfl

@[simp] theorem error_bind (e : ε) (f : α → Except ε β) :
    (Except.error e >>= f) = (Except.error e : Except ε β) := rfl

theorem ok_ne_error {a : α} {e : ε} : (Except.ok a : Except ε α) ≠ .error e := by
  intro h
  cases h

theorem error_ne_ok {a : α} {e : ε} : (Except.error e : Except ε α) ≠ .ok a := ok_ne_error.symm

/-- A chain succeeds exactly when each of its parts does. -/
theorem bind_eq_ok {x : Except ε α} {f : α → Except ε β} {b : β} :
    (x >>= f) = .ok b ↔ ∃ a, x = .ok a ∧ f a = .ok b := by
  cases x <;> simp

theorem map_eq_ok {x : Except ε α} {f : α → β} {b : β} :
    x.map f = .ok b ↔ ∃ a, x = .ok a ∧ f a = b := by
  cases x <;> simp [Except.map]

/-- A chain fails in its first failing part. -/
theorem bind_eq_error {x : Except ε α} {f : α → Except ε β} {e : ε} :
    (x >>= f) = .error e ↔ x = .error e ∨ ∃ a, x = .ok a ∧ f a = .error e := by
  cases x <;> simp

/-- The form `bind_eq_ok` takes when the first part only checks something. -/
theorem ensure_bind_eq_ok {γ : Type} {c : Prop} [Decidable c] {e : ε} {f : Unit → Except ε γ}
    {b : γ} : (ensure c e >>= f) = .ok b ↔ c ∧ f () = .ok b := by
  by_cases h : c <;> simp [ensure, h]

theorem ite_eq_ok {c : Prop} [Decidable c] {e : ε} {a b : α} :
    (if c then .ok a else .error e : Except ε α) = .ok b ↔ c ∧ b = a := by
  by_cases h : c
  · rw [if_pos h, Except.ok.injEq, and_iff_right h, eq_comm]
  · rw [if_neg h]
    exact iff_of_false error_ne_ok fun h' ↦ h h'.1

theorem elim_eq_ok {o : Option α} {e : ε} {a : α} :
    o.elim (.error e) (Except.ok (ε := ε)) = .ok a ↔ o = some a := by
  cases o <;> simp

/-! ## Failures of a known kind -/

/-- Every way `x` can fail satisfies `P`. -/
def FailsOnly (P : ε → Prop) (x : Except ε α) : Prop := ∀ e, x = .error e → P e

theorem failsOnly_ok {P : ε → Prop} (a : α) : FailsOnly P (.ok a) := by
  intro e h
  exact absurd h ok_ne_error

theorem failsOnly_error {P : ε → Prop} {e : ε} (h : P e) :
    FailsOnly P (Except.error e : Except ε α) := by
  intro e' h'
  obtain rfl := Except.error.inj h'
  exact h

theorem failsOnly_ensure {P : ε → Prop} {c : Prop} [Decidable c] {e : ε} (h : ¬c → P e) :
    FailsOnly P (ensure c e) := by
  intro e' h'
  obtain ⟨hc, rfl⟩ := ensure_eq_error.mp h'
  exact h hc

/-- The form `failsOnly_bind` takes when the first part only checks something. -/
theorem failsOnly_guard {γ : Type} {P : ε → Prop} {c : Prop} [Decidable c] {e : ε}
    {f : Unit → Except ε γ} (he : ¬c → P e) (hf : c → FailsOnly P (f ())) :
    FailsOnly P (ensure c e >>= f) := by
  by_cases hc : c
  · rw [ensure, if_pos hc]
    exact hf hc
  · rw [ensure, if_neg hc]
    exact failsOnly_error (he hc)

/-- A check that reports another error has been passed. -/
theorem ensure_bind_eq_error_of_ne {γ : Type} {c : Prop} [Decidable c] {e e' : ε} (he : e ≠ e')
    {f : Unit → Except ε γ} : (ensure c e >>= f) = .error e' ↔ c ∧ f () = .error e' := by
  by_cases h : c <;> simp [ensure, h, he]

/-- A check that alone reports its error has failed. -/
theorem ensure_bind_eq_error_self {γ : Type} {c : Prop} [Decidable c] {e : ε}
    {f : Unit → Except ε γ} (hf : FailsOnly (· ≠ e) (f ())) :
    (ensure c e >>= f) = .error e ↔ ¬c := by
  by_cases h : c
  · rw [ensure, if_pos h]
    exact iff_of_false (fun he ↦ hf e he rfl) (not_not_intro h)
  · rw [ensure, if_neg h]
    exact iff_of_true rfl h

/-- The failures of a chain are those of its parts, each reached by the earlier ones. -/
theorem failsOnly_bind {P : ε → Prop} {x : Except ε α} {f : α → Except ε β} (hx : FailsOnly P x)
    (hf : ∀ a, x = .ok a → FailsOnly P (f a)) : FailsOnly P (x >>= f) := by
  intro e h
  rcases bind_eq_error.mp h with h | ⟨a, ha, h⟩
  · exact hx e h
  · exact hf a ha e h

end Foundation
