import Zescrow.Foundation.Checkpoint
import Zescrow.Foundation.Outcome

/-!
# Simulation, and transactions

One machine simulates another, under a relation between their states, if each step of the one is
matched by a run of the other. A run is matched step by step, so what holds of all states that runs
of the second machine reach holds, through the relation, of those that runs of the first reach.

A transaction is a list of operations that are carried out together: if one of them fails, or what
they lead to is not allowed, none has happened. Its steps are matched as soon as those of the
operations that succeed are.
-/

namespace Foundation

section Simulates

variable {σ τ α β : Type*} {S : σ → τ → Prop} {f : σ → α → σ} {g : τ → β → τ}
  {P : σ → α → Prop} {Q : β → Prop}

/-- From related states, a step of `f` that satisfies `P` is matched by a run of `g` whose steps
satisfy `Q`. -/
def Simulates (S : σ → τ → Prop) (f : σ → α → σ) (g : τ → β → τ) (P : σ → α → Prop)
    (Q : β → Prop) : Prop :=
  ∀ s t a, S s t → P s a → ∃ bs, (∀ b ∈ bs, Q b) ∧ S (f s a) (run g t bs)

/-- A run is matched by a run. -/
theorem Simulates.exists_run (h : Simulates S f g P Q) {s : σ} {t : τ} (hs : S s t)
    {actions : List α} (hP : Along f P s actions) :
    ∃ bs, (∀ b ∈ bs, Q b) ∧ S (run f s actions) (run g t bs) := by
  induction actions generalizing s t with
  | nil => exact ⟨[], List.forall_mem_nil _, hs⟩
  | cons a actions ih =>
    obtain ⟨ha, hP⟩ := hP
    obtain ⟨bs, hbs, hstep⟩ := h s t a hs ha
    obtain ⟨cs, hcs, hrun⟩ := ih hstep hP
    refine ⟨bs ++ cs, List.forall_mem_append.mpr ⟨hbs, hcs⟩, ?_⟩
    rw [run_append]
    exact hrun

end Simulates

section Transaction

variable {σ τ α β ε : Type} {S : σ → τ → Prop} {f : σ → α → Except ε σ} {g : τ → β → τ}
  {allowed : List α → σ → σ → Bool} {Q : β → Prop}

/-- Carries out operations, up to the first one that fails. -/
def attempt (f : σ → α → Except ε σ) : σ → List α → Except ε σ
  | s, [] => .ok s
  | s, a :: operations => do
    let s ← f s a
    attempt f s operations

theorem attempt_keeps {γ : Type} {p : σ → γ} {operations : List α}
    (h : ∀ a ∈ operations, ∀ s s', f s a = .ok s' → p s' = p s) {s s' : σ}
    (hok : attempt f s operations = .ok s') : p s' = p s := by
  induction operations generalizing s with
  | nil =>
    obtain rfl := Except.ok.inj hok
    rfl
  | cons a operations ih =>
    obtain ⟨s₁, ha, hok⟩ := bind_eq_ok.mp hok
    obtain ⟨hfirst, hrest⟩ := List.forall_mem_cons.mp h
    exact (ih hrest hok).trans (hfirst s s₁ ha)

/-- Carries out all operations, or none: a state that is not allowed after the first one does not
stand. -/
def transact (f : σ → α → Except ε σ) (allowed : List α → σ → σ → Bool) (s : σ)
    (operations : List α) : σ :=
  match attempt f s operations with
  | .ok s' => if allowed operations s s' then s' else s
  | .error _ => s

/-- Operations that all succeed are matched one after the other. -/
theorem exists_run_of_attempt
    (h : ∀ s t a s', S s t → f s a = .ok s' → ∃ bs, (∀ b ∈ bs, Q b) ∧ S s' (run g t bs))
    {s s' : σ} {t : τ} (hs : S s t) {operations : List α} (hok : attempt f s operations = .ok s') :
    ∃ bs, (∀ b ∈ bs, Q b) ∧ S s' (run g t bs) := by
  induction operations generalizing s t with
  | nil =>
    obtain rfl := Except.ok.inj hok
    exact ⟨[], List.forall_mem_nil _, hs⟩
  | cons a operations ih =>
    obtain ⟨s₁, ha, hok⟩ := bind_eq_ok.mp hok
    obtain ⟨bs, hbs, hfirst⟩ := h s t a s₁ hs ha
    obtain ⟨cs, hcs, hrest⟩ := ih hfirst hok
    refine ⟨bs ++ cs, List.forall_mem_append.mpr ⟨hbs, hcs⟩, ?_⟩
    rw [run_append]
    exact hrest

/-- A transaction is matched by what its operations are, or by nothing. -/
theorem simulates_transact
    (h : ∀ s t a s', S s t → f s a = .ok s' → ∃ bs, (∀ b ∈ bs, Q b) ∧ S s' (run g t bs)) :
    Simulates S (transact f allowed) g (fun _ _ ↦ True) Q := by
  intro s t operations hs _
  rw [transact]
  split
  · next s' hok =>
    split
    · exact exists_run_of_attempt h hs hok
    · exact ⟨[], List.forall_mem_nil _, hs⟩
  · exact ⟨[], List.forall_mem_nil _, hs⟩

end Transaction

end Foundation
