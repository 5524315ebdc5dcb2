import Zescrow.Foundation.Outcome

/-!
# Effects

An effect changes a state and may fail. What it has changed by then stays changed, so a chain of
effects that fails has done what its parts before the failing one do, and what that one does.
-/

namespace Foundation

variable {σ ε α β : Type}

/-- Changes a state of type `σ`, and fails or gives a value. -/
abbrev Effect (σ ε : Type) := ExceptT ε (StateM σ)

namespace Effect

/-- Looks at the state. -/
def read (f : σ → Except ε α) : Effect σ ε α := fun s ↦ (f s, s)

/-- Changes the state if that succeeds. -/
def update (f : σ → Except ε σ) : Effect σ ε Unit := fun s ↦
  match f s with
  | .ok s' => (.ok (), s')
  | .error e => (.error e, s)

@[simp] theorem read_apply (f : σ → Except ε α) (s : σ) : read f s = (f s, s) := rfl

theorem update_of_ok {f : σ → Except ε σ} {s s' : σ} (h : f s = .ok s') :
    update f s = (.ok (), s') := by
  simp only [update, h]

theorem update_of_error {f : σ → Except ε σ} {s : σ} {e : ε} (h : f s = .error e) :
    update f s = (.error e, s) := by
  simp only [update, h]

theorem update_eq_ok {f : σ → Except ε σ} {s s' : σ} :
    update f s = (.ok (), s') ↔ f s = .ok s' := by
  cases h : f s with
  | error e =>
    rw [update_of_error h]
    exact iff_of_false (fun h' ↦ error_ne_ok (congrArg Prod.fst h')) error_ne_ok
  | ok s₁ =>
    rw [update_of_ok h, Except.ok.injEq]
    exact ⟨fun h' ↦ congrArg Prod.snd h', fun h' ↦ h' ▸ rfl⟩

theorem fst_eq {x : Effect σ ε α} {s : σ} {r : Except ε α} :
    (x s).1 = r ↔ ∃ s', x s = (r, s') :=
  ⟨fun h ↦ ⟨_, Prod.ext h rfl⟩, fun ⟨_, h⟩ ↦ congrArg Prod.fst h⟩

theorem bind_of_ok {x : Effect σ ε α} {f : α → Effect σ ε β} {s s' : σ} {a : α}
    (h : x s = (.ok a, s')) : (x >>= f) s = f a s' := by
  change ExceptT.bindCont f (x s).1 (x s).2 = f a s'
  rw [h]
  rfl

theorem bind_of_error {x : Effect σ ε α} {f : α → Effect σ ε β} {s s' : σ} {e : ε}
    (h : x s = (.error e, s')) : (x >>= f) s = (.error e, s') := by
  change ExceptT.bindCont f (x s).1 (x s).2 = (.error e, s')
  rw [h]
  rfl

theorem bind_eq_ok {x : Effect σ ε α} {f : α → Effect σ ε β} {s s' : σ} {b : β} :
    (x >>= f) s = (.ok b, s') ↔ ∃ a s₁, x s = (.ok a, s₁) ∧ f a s₁ = (.ok b, s') := by
  rcases hx : x s with ⟨r, s₁⟩
  cases r with
  | error e =>
    rw [bind_of_error hx]
    refine iff_of_false (fun h ↦ error_ne_ok (congrArg Prod.fst h)) ?_
    rintro ⟨a, s₂, h, -⟩
    exact error_ne_ok (congrArg Prod.fst h)
  | ok a =>
    rw [bind_of_ok hx]
    constructor
    · exact fun h ↦ ⟨a, s₁, rfl, h⟩
    · rintro ⟨a', s₂, h, h'⟩
      obtain ⟨ha, rfl⟩ := Prod.mk.inj h
      obtain rfl := Except.ok.inj ha
      exact h'

theorem bind_eq_error {x : Effect σ ε α} {f : α → Effect σ ε β} {s s' : σ} {e : ε} :
    (x >>= f) s = (.error e, s') ↔
      x s = (.error e, s') ∨ ∃ a s₁, x s = (.ok a, s₁) ∧ f a s₁ = (.error e, s') := by
  rcases hx : x s with ⟨r, s₁⟩
  cases r with
  | error e' =>
    rw [bind_of_error hx]
    constructor
    · intro h
      obtain ⟨he, rfl⟩ := Prod.mk.inj h
      obtain rfl := Except.error.inj he
      exact .inl rfl
    · rintro (h | ⟨a, s₂, h, -⟩)
      · obtain ⟨he, rfl⟩ := Prod.mk.inj h
        obtain rfl := Except.error.inj he
        rfl
      · exact absurd (congrArg Prod.fst h) error_ne_ok
  | ok a =>
    rw [bind_of_ok hx]
    constructor
    · exact fun h ↦ .inr ⟨a, s₁, rfl, h⟩
    · rintro (h | ⟨a', s₂, h, h'⟩)
      · exact absurd (congrArg Prod.fst h) ok_ne_error
      · obtain ⟨ha, rfl⟩ := Prod.mk.inj h
        obtain rfl := Except.ok.inj ha
        exact h'

/-! ## What is kept -/

/-- Wherever it starts and whether it fails, it ends in a state related to the first. -/
def Keeps (R : σ → σ → Prop) (x : Effect σ ε α) : Prop := ∀ s, R s (x s).2

theorem keeps_read {R : σ → σ → Prop} (hrefl : ∀ s, R s s) (f : σ → Except ε α) :
    Keeps R (read f) := hrefl

theorem keeps_update {R : σ → σ → Prop} (hrefl : ∀ s, R s s) {f : σ → Except ε σ}
    (h : ∀ s s', f s = .ok s' → R s s') : Keeps R (update f) := by
  intro s
  cases hf : f s with
  | error e =>
    rw [update_of_error hf]
    exact hrefl s
  | ok s' =>
    rw [update_of_ok hf]
    exact h s s' hf

theorem Keeps.bind {R : σ → σ → Prop} (htrans : ∀ s s₁ s₂, R s s₁ → R s₁ s₂ → R s s₂)
    {x : Effect σ ε α} {f : α → Effect σ ε β} (hx : Keeps R x)
    (hf : ∀ a s s', x s = (.ok a, s') → Keeps R (f a)) : Keeps R (x >>= f) := by
  intro s
  have hfirst := hx s
  rcases hs : x s with ⟨r, s₁⟩
  rw [hs] at hfirst
  cases r with
  | error e =>
    rw [bind_of_error hs]
    exact hfirst
  | ok a =>
    rw [bind_of_ok hs]
    exact htrans s s₁ _ hfirst (hf a s s₁ hs s₁)

end Effect

end Foundation
