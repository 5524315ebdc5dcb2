import Mathlib.Data.List.Induction
import Zescrow.Foundation.Checkpoint
import Zescrow.Foundation.TimeLock

/-!
# Deposits under time locks

What an escrow is for, with no chain in it. A depositor locks an amount for a beneficiary. From one
deadline on the deposit can be released to the beneficiary, from another one on it can be returned
to the depositor, and one of the two happens, once.

A history lists what has happened, when, and at whose call. Which id a deposit may get, and what
else it takes to settle one, is left to a set of rules; an implementation is compared with the
histories its rules allow.
-/

namespace Foundation

universe u v w

/-- The terms of a deposit. -/
structure Deal (π : Type v) (κ : Type w) where
  depositor : π
  beneficiary : π
  amount : ℕ
  lock : TimeLock
  condition : Option κ
  deriving DecidableEq

/-- How a deposit ends. -/
inductive Fate where
  | released
  | returned
  deriving DecidableEq

namespace Deal

variable {π : Type v} {κ : Type w}

/-- Who is paid. -/
def payee (d : Deal π κ) : Fate → π
  | .released => d.beneficiary
  | .returned => d.depositor

/-- At time `n` the lock allows it. -/
def Open (d : Deal π κ) (n : ℕ) : Fate → Prop
  | .released => d.lock.FinishOpen n
  | .returned => d.lock.CancelOpen n

end Deal

namespace Deposits

variable {ι : Type u} {π : Type v} {κ : Type w}

/-- What there is under an id. -/
inductive Status (π : Type v) (κ : Type w) where
  | vacant
  | held (d : Deal π κ)
  | settled (d : Deal π κ) (fate : Fate)
  deriving DecidableEq

def Status.settle (s : Status π κ) (fate : Fate) : Status π κ :=
  match s with
  | .held d => .settled d fate
  | s => s

/-- What happens at a time, at somebody's call. -/
inductive Event (ι : Type u) (π : Type v) (κ : Type w) where
  | deposit (time : ℕ) (i : ι) (caller : π) (d : Deal π κ)
  | settle (time : ℕ) (i : ι) (caller : π) (fate : Fate)

def Event.time : Event ι π κ → ℕ
  | .deposit time .. => time
  | .settle time .. => time

/-- The deposits, and the time of the last event. -/
structure State (ι : Type u) (π : Type v) (κ : Type w) where
  clock : ℕ
  status : ι → Status π κ

/-- No deposit was made. -/
def State.init (clock : ℕ) : State ι π κ := ⟨clock, fun _ ↦ .vacant⟩

/-- What is left to an implementation: the id of a new deposit, and what it takes to settle one
besides the time. -/
structure Rules (ι : Type u) (π : Type v) (κ : Type w) where
  admits : (ι → Status π κ) → ι → Deal π κ → Prop
  settles : ι → Deal π κ → Fate → Prop

section

variable [DecidableEq ι]

def State.step (s : State ι π κ) : Event ι π κ → State ι π κ
  | .deposit time i _ d => ⟨time, Function.update s.status i (.held d)⟩
  | .settle time i _ fate => ⟨time, Function.update s.status i ((s.status i).settle fate)⟩

section

variable {s : State ι π κ} {time : ℕ} {i j : ι} {caller : π} {d : Deal π κ}
  {fate : Fate}

theorem State.step_deposit_self : (s.step (.deposit time i caller d)).status i = .held d :=
  Function.update_self ..

theorem State.step_deposit_of_ne (h : j ≠ i) :
    (s.step (.deposit time i caller d)).status j = s.status j := Function.update_of_ne h ..

theorem State.step_settle_self (h : s.status i = .held d) :
    (s.step (.settle time i caller fate)).status i = .settled d fate := by
  rw [step, h]
  exact Function.update_self ..

theorem State.step_settle_of_ne (h : j ≠ i) :
    (s.step (.settle time i caller fate)).status j = s.status j := Function.update_of_ne h ..

end

/-- The state after some events. -/
abbrev State.run (s : State ι π κ) (events : List (Event ι π κ)) : State ι π κ :=
  Foundation.run State.step s events

end

/-- What may happen in a state: the depositor makes a deposit under a vacant id with a way out, and
who is to be paid settles a deposit that is held, once its lock is open. -/
def Rules.Allows (R : Rules ι π κ) (s : State ι π κ) : Event ι π κ → Prop
  | .deposit time i caller d => s.clock ≤ time ∧ s.status i = .vacant ∧ caller = d.depositor ∧
      0 < d.amount ∧ d.lock.Admissible (d.condition ≠ none) ∧ R.admits s.status i d
  | .settle time i caller fate => s.clock ≤ time ∧
      ∃ d, s.status i = .held d ∧ caller = d.payee fate ∧ d.Open time fate ∧ R.settles i d fate

variable {R : Rules ι π κ}

theorem Rules.Allows.clock_le {s : State ι π κ} {e : Event ι π κ} (h : R.Allows s e) :
    s.clock ≤ e.time := by
  cases e with
  | deposit => exact h.1
  | settle => exact h.1

variable [DecidableEq ι]

/-- What may happen from time `clock` on. -/
def Rules.History (R : Rules ι π κ) (clock : ℕ) (events : List (Event ι π κ)) : Prop :=
  Along State.step R.Allows (.init clock) events

/-! ## Histories grow at their end -/

theorem history_nil (clock : ℕ) : R.History clock [] := trivial

theorem history_append {clock : ℕ} {events : List (Event ι π κ)} {e : Event ι π κ} :
    R.History clock (events ++ [e]) ↔
      R.History clock events ∧ R.Allows ((State.init clock).run events) e := by
  rw [Rules.History, along_append, Rules.History, Along, Along, and_iff_left trivial]

theorem State.step_clock (s : State ι π κ) (e : Event ι π κ) : (s.step e).clock = e.time := by
  cases e <;> rfl

/-- Nothing in a history is later than its last event. -/
theorem Rules.History.time_le {clock : ℕ} {events : List (Event ι π κ)}
    (h : R.History clock events) :
    ∀ e ∈ events, e.time ≤ ((State.init clock).run events).clock := by
  induction events using List.reverseRecOn with
  | nil => exact fun e he ↦ absurd he List.not_mem_nil
  | append_singleton events last ih =>
    obtain ⟨hevents, hallows⟩ := history_append.mp h
    intro e he
    rw [State.run, run_append]
    change e.time ≤ (((State.init clock).run events).step last).clock
    rw [State.step_clock]
    rcases List.mem_append.mp he with he | he
    · exact (ih hevents e he).trans hallows.clock_le
    · rw [List.mem_singleton.mp he]

end Deposits

end Foundation
