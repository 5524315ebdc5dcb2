import Mathlib.Data.List.Basic
import Mathlib.Logic.Relation

/-!
# Worlds with checkpoints, and runs

A world that changes inside nested calls. Entering a call saves the world on a stack; a call that
returns drops what it saved and keeps its changes, a call that reverts puts the saved world back.

What holds along any nesting of returns and reverts follows from what one change of the world does.
A property every change preserves holds of the current world and of every saved one (`All`), so it
survives a revert. Applied to "comes after the world outside all calls" this says that what has been
reached outside all calls is never undone. A property may also relate a world to the calls in
progress (`Framed`): a revert puts back both together.

A run folds a step function over a list of actions. What one step preserves, a run preserves; and
what a step preserves under a condition is preserved by the runs that meet it all along.
-/

namespace Foundation

/-- A world, with the worlds saved by the calls in progress, innermost first, each with the kind of
call that saved it. -/
structure Checkpointed (κ ω : Type*) where
  current : ω
  saved : List (κ × ω)

namespace Checkpointed

variable {κ ω : Type*}

/-- Outside all calls. -/
def start (w : ω) : Checkpointed κ ω := ⟨w, []⟩

/-- Change the world. -/
def set (c : Checkpointed κ ω) (w : ω) : Checkpointed κ ω := { c with current := w }

/-- Enter a call. -/
def push (c : Checkpointed κ ω) (k : κ) : Checkpointed κ ω :=
  ⟨c.current, (k, c.current) :: c.saved⟩

/-- Return from the innermost call. -/
def commit (c : Checkpointed κ ω) : Checkpointed κ ω := ⟨c.current, c.saved.tail⟩

/-- Revert the innermost call. -/
def abort (c : Checkpointed κ ω) : Checkpointed κ ω :=
  match c.saved with
  | [] => c
  | (_, w) :: rest => ⟨w, rest⟩

/-- The kind of the innermost call. -/
def top (c : Checkpointed κ ω) : Option κ := c.saved.head?.map Prod.fst

/-- What can happen while the world only changes by `S`. -/
inductive Move (S : ω → ω → Prop) : Checkpointed κ ω → Checkpointed κ ω → Prop where
  | act {c : Checkpointed κ ω} {w : ω} (h : S c.current w) : Move S c (c.set w)
  | push (c : Checkpointed κ ω) (k : κ) : Move S c (c.push k)
  | commit (c : Checkpointed κ ω) : Move S c c.commit
  | abort (c : Checkpointed κ ω) : Move S c c.abort

theorem Move.mono {S S' : ω → ω → Prop} (hS : ∀ w w', S w w' → S' w w') {c c' : Checkpointed κ ω}
    (h : Move S c c') : Move S' c c' := by
  cases h with
  | act h => exact .act (hS _ _ h)
  | push k => exact .push c k
  | commit => exact .commit c
  | abort => exact .abort c

/-- Any number of moves. -/
abbrev Moves (S : ω → ω → Prop) : Checkpointed κ ω → Checkpointed κ ω → Prop :=
  Relation.ReflTransGen (Move S)

theorem Moves.mono {S S' : ω → ω → Prop} (hS : ∀ w w', S w w' → S' w w')
    {c c' : Checkpointed κ ω} (h : Moves S c c') : Moves S' c c' :=
  Relation.ReflTransGen.mono (fun _ _ hmove ↦ hmove.mono hS) _ _ h

/-! ## Invariants -/

/-- The current world and all saved ones satisfy `I`. -/
def All (I : ω → Prop) (c : Checkpointed κ ω) : Prop := I c.current ∧ ∀ s ∈ c.saved, I s.2

theorem all_start {I : ω → Prop} {w : ω} (h : I w) : All I (start w : Checkpointed κ ω) :=
  ⟨h, fun _ hs ↦ absurd hs List.not_mem_nil⟩

theorem All.move {I : ω → Prop} {S : ω → ω → Prop} (hS : ∀ w w', S w w' → I w → I w')
    {c c' : Checkpointed κ ω} (h : Move S c c') (hc : All I c) : All I c' := by
  cases h with
  | act h => exact ⟨hS _ _ h hc.1, hc.2⟩
  -- The world saved is the current one.
  | push k =>
    refine ⟨hc.1, fun s hs ↦ ?_⟩
    rcases List.mem_cons.mp hs with rfl | hs
    · exact hc.1
    · exact hc.2 s hs
  | commit => exact ⟨hc.1, fun s hs ↦ hc.2 s (List.mem_of_mem_tail hs)⟩
  | abort =>
    -- The world put back is one of the saved ones.
    rw [abort]
    split
    · exact hc
    · next k w rest heq =>
      rw [All, heq] at hc
      exact ⟨hc.2 _ List.mem_cons_self, fun s hs ↦ hc.2 s (List.mem_cons_of_mem _ hs)⟩

/-- An invariant of the changes survives every nesting of returns and reverts. -/
theorem All.moves {I : ω → Prop} {S : ω → ω → Prop} (hS : ∀ w w', S w w' → I w → I w')
    {c c' : Checkpointed κ ω} (h : Moves S c c') (hc : All I c) : All I c' := by
  induction h with
  | refl => exact hc
  | tail _ hmove ih => exact ih.move hS hmove

/-- **Nothing outside all calls is undone.** A preorder that every change respects relates the world
outside all calls to every later world. -/
theorem related_of_moves {R S : ω → ω → Prop} (hrefl : ∀ w, R w w)
    (htrans : ∀ u v w, R u v → R v w → R u w) (hS : ∀ w w', S w w' → R w w')
    {w : ω} {c' : Checkpointed κ ω} (h : Moves S (start w) c') : R w c'.current := by
  -- Every world on the way, saved or current, comes after `w`.
  have hall : All (R w) c' := All.moves (fun u v huv hu ↦ htrans _ _ _ hu (hS u v huv)) h
    (all_start (hrefl w))
  exact hall.1

/-! ## Worlds and the calls they are in -/

/-- The kinds of the calls in progress, innermost first. -/
def kinds (c : Checkpointed κ ω) : List κ := c.saved.map Prod.fst

theorem kinds_of_top {c : Checkpointed κ ω} {k : κ} (h : c.top = some k) :
    c.kinds = k :: c.kinds.tail := by
  rw [top, ← List.head?_map] at h
  exact List.eq_cons_of_mem_head? h

/-- The current world satisfies `P` together with the calls in progress, and every saved one
together with the calls that were in progress when it was saved. -/
structure Framed (P : ω → List κ → Prop) (c : Checkpointed κ ω) : Prop where
  current : P c.current c.kinds
  saved : ∀ k w rest, (k, w) :: rest <:+ c.saved → P w (rest.map Prod.fst)

section Framed

variable {P : ω → List κ → Prop} {c : Checkpointed κ ω}

theorem framed_start {w : ω} (h : P w []) : Framed P (start w : Checkpointed κ ω) where
  current := h
  saved := fun _ _ _ hs ↦ absurd (List.suffix_nil.mp hs) (List.cons_ne_nil _ _)

theorem Framed.set {w : ω} (hc : Framed P c) (h : P w c.kinds) : Framed P (c.set w) :=
  ⟨h, hc.saved⟩

theorem Framed.push_set {k : κ} {w : ω} (hc : Framed P c) (h : P w (k :: c.kinds)) :
    Framed P ((c.push k).set w) := by
  refine ⟨h, fun k' w' rest hs ↦ ?_⟩
  rcases List.suffix_cons_iff.mp hs with heq | hs
  · obtain ⟨hhead, rfl⟩ := List.cons.inj heq
    obtain ⟨-, rfl⟩ := Prod.mk.inj hhead
    exact hc.current
  · exact hc.saved k' w' rest hs

theorem Framed.commit_set {w : ω} (hc : Framed P c) (h : P w c.kinds.tail) :
    Framed P (c.commit.set w) := by
  refine ⟨?_, fun k w' rest hs ↦ hc.saved k w' rest (hs.trans (List.tail_suffix _))⟩
  rw [kinds, ← List.map_tail] at h
  exact h

theorem Framed.abort (hc : Framed P c) : Framed P c.abort := by
  rw [Checkpointed.abort]
  split
  · exact hc
  · next k w rest heq =>
    have hsuffix : (k, w) :: rest <:+ c.saved := heq ▸ List.suffix_rfl
    exact ⟨hc.saved k w rest hsuffix, fun k' w' rest' hs ↦
      hc.saved k' w' rest' ((hs.trans (List.suffix_cons _ _)).trans hsuffix)⟩

end Framed

end Checkpointed

/-! ## Runs -/

section Run

variable {σ α : Type*} (step : σ → α → σ)

/-- The state a run of actions leads to. -/
def run (s : σ) (actions : List α) : σ := actions.foldl step s

variable {step}

/-- A property every step preserves holds along the whole run. -/
theorem run_induction {I : σ → Prop} (hstep : ∀ s a, I s → I (step s a)) {s : σ} (hs : I s)
    (actions : List α) : I (run step s actions) := by
  induction actions generalizing s with
  | nil => exact hs
  | cons a actions ih => exact ih (hstep s a hs)

variable (step) in
/-- Every action of a run satisfies `P` in the state it is taken in. -/
def Along (P : σ → α → Prop) : σ → List α → Prop
  | _, [] => True
  | s, a :: actions => P s a ∧ Along P (step s a) actions

/-- A property a step preserves when `P` holds of it holds after every run along which `P` holds. -/
theorem run_along {I : σ → Prop} {P : σ → α → Prop} (hstep : ∀ s a, P s a → I s → I (step s a))
    {s : σ} (hs : I s) {actions : List α} (h : Along step P s actions) :
    I (run step s actions) := by
  induction actions generalizing s with
  | nil => exact hs
  | cons a actions ih => exact ih (hstep s a h.1 hs) h.2

theorem along_of_forall {P : σ → α → Prop} (h : ∀ s a, P s a) (s : σ) (actions : List α) :
    Along step P s actions := by
  induction actions generalizing s with
  | nil => trivial
  | cons a actions ih => exact ⟨h s a, ih (step s a)⟩

/-- A property that a step keeps exactly when `P` holds of it is kept by the runs along which `P`
holds, and by no others. -/
theorem run_iff_along {I : σ → Prop} {P : σ → α → Prop} (hstep : ∀ s a, I (step s a) ↔ I s ∧ P s a)
    (s : σ) (actions : List α) : I (run step s actions) ↔ I s ∧ Along step P s actions := by
  induction actions generalizing s with
  | nil => exact (and_iff_left trivial).symm
  | cons a actions ih =>
    have hrun : run step s (a :: actions) = run step (step s a) actions := rfl
    rw [hrun, ih, hstep, Along, and_assoc]

theorem run_append (s : σ) (as bs : List α) :
    run step s (as ++ bs) = run step (run step s as) bs := List.foldl_append

theorem along_append {P : σ → α → Prop} {s : σ} {as bs : List α} :
    Along step P s (as ++ bs) ↔ Along step P s as ∧ Along step P (run step s as) bs := by
  induction as generalizing s with
  | nil => exact (and_iff_right trivial).symm
  | cons a as ih =>
    have hrun : run step s (a :: as) = run step (step s a) as := rfl
    rw [List.cons_append, Along, ih, Along, hrun, and_assoc]

end Run

end Foundation
