import Mathlib.Data.List.Perm.Basic
import Mathlib.Data.Nat.Count
import Mathlib.Order.Monotone.Defs

/-!
# Selections

A check of a tree asks something of every node, which may depend on how many of the children pass
it. What a successful check has seen is a *selection*: a set of positions with the root among them
that has enough children at each of its positions. When more children never hurt, the check
succeeds exactly if there is a selection.

The tree is any type with a list of children for each of its members, and a position is the list of
the indices to follow from the root.
-/

namespace Foundation.Selection

variable {τ : Type*} (children : τ → List τ)

/-- The node at a position. -/
def nodeAt : List ℕ → τ → Option τ
  | [], t => some t
  | i :: p, t => (children t)[i]?.bind (nodeAt p)

open Classical in
/-- How many of the first `n` children of a position are in `S`. -/
noncomputable def selected (S : Set (List ℕ)) (p : List ℕ) (n : ℕ) : ℕ :=
  Nat.count (fun i ↦ p ++ [i] ∈ S) n

/-- The root is selected, and each selected position is that of a node which is content with the
number of its children that are selected. -/
structure IsSelection (content : τ → ℕ → Prop) (t : τ) (S : Set (List ℕ)) : Prop where
  root : [] ∈ S
  node : ∀ p ∈ S, ∃ s, nodeAt children p t = some s ∧
    content s (selected S p (children s).length)

variable {children}

theorem nodeAt_cons_eq_some {i : ℕ} {p : List ℕ} {t s : τ} :
    nodeAt children (i :: p) t = some s ↔
      ∃ c, (children t)[i]? = some c ∧ nodeAt children p c = some s := Option.bind_eq_some_iff

theorem nodeAt_append (p q : List ℕ) (t : τ) :
    nodeAt children (p ++ q) t = (nodeAt children p t).bind (nodeAt children q) := by
  induction p generalizing t with
  | nil => rfl
  | cons i p ih =>
    rw [List.cons_append, nodeAt, nodeAt, Option.bind_assoc]
    exact Option.bind_congr fun c _ ↦ ih c

theorem count_eq_countP {α : Type*} {l : List α} {P : ℕ → Prop} {q : α → Prop}
    {_ : DecidablePred P} [DecidablePred q] (h : ∀ i a, l[i]? = some a → (P i ↔ q a)) :
    Nat.count P l.length = l.countP q := by
  induction l generalizing P with
  | nil => rfl
  | cons a l ih =>
    have hhead : P 0 ↔ q a := h 0 a rfl
    rw [List.length_cons, Nat.count_succ', List.countP_cons,
      ih fun i b hb ↦ h (i + 1) b (List.getElem?_cons_succ.trans hb)]
    simp only [hhead, decide_eq_true_eq]

theorem countP_modify_add {α : Type*} {q : α → Prop} [DecidablePred q] {l : List α} {i : ℕ} {a : α}
    {f : α → α} (h : l[i]? = some a) : (l.modify i f).countP q + (if q a then 1 else 0)
      = l.countP q + if q (f a) then 1 else 0 := by
  induction l generalizing i with
  | nil => exact absurd h.symm (Option.some_ne_none a)
  | cons b l ih =>
    cases i with
    | zero =>
      obtain rfl := Option.some.inj h
      simp only [List.modify_zero_cons, List.countP_cons, decide_eq_true_eq]
      omega
    | succ i =>
      have hrest := ih (i := i) h
      simp only [List.modify_succ_cons, List.countP_cons, decide_eq_true_eq]
      omega

variable {content : τ → ℕ → Prop} {holds : τ → Prop} [DecidablePred holds]

section

variable (hholds : ∀ t, holds t ↔ content t ((children t).countP holds))

include hholds

/-- The positions at which the check succeeds are a selection. -/
theorem isSelection_of_holds {t : τ} (h : holds t) :
    IsSelection children content t {p | ∃ s, nodeAt children p t = some s ∧ holds s} := by
  refine ⟨⟨t, rfl, h⟩, fun p ⟨s, hs, hholdss⟩ ↦ ⟨s, hs, ?_⟩⟩
  have hcount : selected {p | ∃ s, nodeAt children p t = some s ∧ holds s} p (children s).length
      = (children s).countP holds := by
    refine count_eq_countP fun i a ha ↦ ?_
    have hat : nodeAt children (p ++ [i]) t = some a := by
      rw [nodeAt_append, hs, Option.bind_some, nodeAt_cons_eq_some]
      exact ⟨a, ha, rfl⟩
    simp only [Set.mem_ofPred_eq, hat, Option.some.injEq, exists_eq_left']
  rw [hcount]
  exact (hholds s).mp hholdss

/-- A check that succeeds on a node with a selection below it, child by child. -/
theorem holds_of_isSelection (hmono : ∀ t, Monotone (content t))
    (hwf : WellFounded fun a b ↦ a ∈ children b) {t : τ} {S : Set (List ℕ)}
    (h : IsSelection children content t S) : holds t := by
  induction t using hwf.induction generalizing S with
  | _ t ih =>
    -- What is selected below a selected child is a selection of that child.
    have hchild : ∀ i c, (children t)[i]? = some c → [i] ∈ S → holds c := by
      intro i c hc hi
      refine ih c (List.mem_of_getElem? hc) (S := {q | i :: q ∈ S}) ⟨hi, fun q hq ↦ ?_⟩
      obtain ⟨s, hs, hcontent⟩ := h.node (i :: q) hq
      obtain ⟨c', hc', hs⟩ := nodeAt_cons_eq_some.mp hs
      obtain rfl := Option.some.inj (hc.symm.trans hc')
      exact ⟨s, hs, hcontent⟩
    obtain ⟨s, hs, hcontent⟩ := h.node [] h.root
    obtain rfl := Option.some.inj hs
    refine (hholds t).mpr (hmono t ?_ hcontent)
    classical
    have hcount : Nat.count (fun i ↦ ∃ c, (children t)[i]? = some c ∧ holds c) (children t).length
        = (children t).countP holds := by
      refine count_eq_countP fun i c hc ↦ ?_
      simp only [hc, Option.some.injEq, exists_eq_left']
    rw [← hcount, selected]
    refine Nat.count_mono_left fun i hi hsel ↦ ?_
    exact ⟨_, List.getElem?_eq_getElem hi, hchild i _ (List.getElem?_eq_getElem hi) hsel⟩

/-- **Selections certify the check.** -/
theorem holds_iff_exists (hmono : ∀ t, Monotone (content t))
    (hwf : WellFounded fun a b ↦ a ∈ children b) (t : τ) :
    holds t ↔ ∃ S, IsSelection children content t S :=
  ⟨fun h ↦ ⟨_, isSelection_of_holds hholds h⟩, fun ⟨_, h⟩ ↦ holds_of_isSelection hholds hmono hwf h⟩

end

end Foundation.Selection
