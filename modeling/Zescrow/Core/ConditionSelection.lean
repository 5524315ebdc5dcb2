import Zescrow.Core.Condition
import Zescrow.Foundation.Selection

/-!
# What a threshold condition means

A condition verifies when enough of its tree does: there is a selection of nodes, the root among
them, whose leaves pass their own checks and whose thresholds are positive and met by the selected
children. A subcondition that fails, or that is malformed, is one that is not selected.

Read off from this, or from the same recursion: a condition that verifies has a leaf that passes,
the order of the subconditions does not matter, and a subcondition that starts to verify never does
harm.
-/

open Foundation Selection

namespace Zescrow.Condition

variable (K : Crates)

/-! ## Nodes -/

/-- The subconditions of a threshold node. -/
def subconditions : Condition → List Condition
  | .hashlock _ => []
  | .ed25519 _ => []
  | .secp256k1 _ => []
  | .threshold _ cs => cs

/-- The node at a position. -/
def nodeAt (p : List ℕ) (c : Condition) : Option Condition := Selection.nodeAt subconditions p c

/-- A leaf whose own check passes: a preimage that hashes to the hash, a valid signature. -/
def LeafPasses : Condition → Prop
  | .hashlock h => K.sha256 h.preimage = h.hash
  | .ed25519 e => K.ed25519.check e.publicKey.1 e.message e.signature = .ok ()
  | .secp256k1 s => K.secp256k1.check s.publicKey s.message s.signature = .ok ()
  | .threshold _ _ => False

/-- A node is content with `k` of its children: a leaf when it passes, a threshold node when the
threshold is positive and `k` reaches it. -/
def Content : Condition → ℕ → Prop
  | .hashlock h, _ => LeafPasses K (.hashlock h)
  | .ed25519 e, _ => LeafPasses K (.ed25519 e)
  | .secp256k1 s, _ => LeafPasses K (.secp256k1 s)
  | .threshold n _, k => 1 ≤ n ∧ n ≤ k

/-- A selection of positions of the tree. -/
def IsSelection (c : Condition) (S : Set (List ℕ)) : Prop :=
  Selection.IsSelection subconditions (Content K) c S

/-- The condition with `s` at a position. A position outside of the tree changes nothing. -/
def replace : Condition → List ℕ → Condition → Condition
  | _, [], s => s
  | .threshold n cs, i :: p, s => .threshold n (cs.modify i (·.replace p s))
  | .hashlock h, _ :: _, _ => .hashlock h
  | .ed25519 e, _ :: _, _ => .ed25519 e
  | .secp256k1 s', _ :: _, _ => .secp256k1 s'

variable {K}

theorem satisfied_iff_content (c : Condition) :
    c.Satisfied K ↔ Content K c (c.subconditions.countP (·.Satisfied K)) := by
  cases c with
  | hashlock h => exact satisfied_hashlock
  | ed25519 e => exact satisfied_ed25519
  | secp256k1 s => exact satisfied_secp256k1
  | threshold n cs => exact satisfied_threshold

theorem LeafPasses.satisfied {c : Condition} (h : LeafPasses K c) : c.Satisfied K := by
  rw [satisfied_iff_content]
  cases c with
  | hashlock _ => exact h
  | ed25519 _ => exact h
  | secp256k1 _ => exact h
  | threshold _ _ => exact h.elim

theorem monotone_content (c : Condition) : Monotone (Content K c) := by
  intro k k' hk
  cases c with
  | hashlock _ => exact id
  | ed25519 _ => exact id
  | secp256k1 _ => exact id
  | threshold n cs => exact fun h ↦ ⟨h.1, h.2.trans hk⟩

theorem wellFounded_subconditions :
    WellFounded fun c c' : Condition ↦ c ∈ c'.subconditions := by
  refine ⟨fun c ↦ ?_⟩
  induction c with
  | hashlock h => exact ⟨_, fun _ hmem ↦ absurd hmem List.not_mem_nil⟩
  | ed25519 e => exact ⟨_, fun _ hmem ↦ absurd hmem List.not_mem_nil⟩
  | secp256k1 s => exact ⟨_, fun _ hmem ↦ absurd hmem List.not_mem_nil⟩
  | threshold n cs ih => exact ⟨_, ih⟩

/-- A condition verifies exactly if it has a selection. -/
theorem satisfied_iff_exists_selection (c : Condition) :
    c.Satisfied K ↔ ∃ S, c.IsSelection K S :=
  Selection.holds_iff_exists satisfied_iff_content monotone_content wellFounded_subconditions c

/-! ## Consequences -/

theorem exists_leafPasses {c : Condition} (h : c.Satisfied K) :
    ∃ p leaf, c.nodeAt p = some leaf ∧ LeafPasses K leaf := by
  induction c with
  | hashlock l => exact ⟨[], _, rfl, satisfied_hashlock.mp h⟩
  | ed25519 e => exact ⟨[], _, rfl, satisfied_ed25519.mp h⟩
  | secp256k1 s => exact ⟨[], _, rfl, satisfied_secp256k1.mp h⟩
  | threshold n cs ih =>
    obtain ⟨hpos, hcount⟩ := satisfied_threshold.mp h
    obtain ⟨c, hc, hsat⟩ := List.countP_pos_iff.mp (hpos.trans_le hcount)
    obtain ⟨p, leaf, hleaf, hpasses⟩ := ih c hc (of_decide_eq_true hsat)
    obtain ⟨i, hi⟩ := List.mem_iff_getElem?.mp hc
    exact ⟨i :: p, leaf, Selection.nodeAt_cons_eq_some.mpr ⟨c, hi, hleaf⟩, hpasses⟩

theorem nodeAt_cons {c s : Condition} {i : ℕ} {p : List ℕ} (h : c.nodeAt (i :: p) = some s) :
    ∃ n cs c', c = .threshold n cs ∧ cs[i]? = some c' ∧ c'.nodeAt p = some s := by
  obtain ⟨c', hc', hs⟩ := Selection.nodeAt_cons_eq_some.mp h
  cases c with
  | hashlock _ => exact absurd hc'.symm (Option.some_ne_none c')
  | ed25519 _ => exact absurd hc'.symm (Option.some_ne_none c')
  | secp256k1 _ => exact absurd hc'.symm (Option.some_ne_none c')
  | threshold n cs => exact ⟨n, cs, c', rfl, hc', hs⟩

/-- What verifies the same can be put in its place, and the whole verifies the same. -/
theorem verify_replace {c s s' : Condition} {p : List ℕ} (hs : c.nodeAt p = some s)
    (h : s'.verify K = s.verify K) : (c.replace p s').verify K = c.verify K := by
  induction p generalizing c with
  | nil =>
    obtain rfl := Option.some.inj hs
    rw [replace, h]
  | cons i p ih =>
    obtain ⟨n, cs, c', rfl, hc', hs⟩ := nodeAt_cons hs
    have hsame : (c'.replace p s').Satisfied K ↔ c'.Satisfied K := by
      rw [Satisfied, ih hs, Satisfied]
    have hcount := countP_modify_add (q := (·.Satisfied K)) (f := (·.replace p s')) hc'
    simp only [hsame] at hcount
    rw [replace, verify, verify, countSatisfied_eq, countSatisfied_eq, List.length_modify,
      Nat.add_right_cancel hcount]

theorem verify_threshold_perm {n : ℕ} {cs cs' : List Condition} (h : cs.Perm cs') :
    (threshold n cs').verify K = (threshold n cs).verify K := by
  rw [verify, verify, countSatisfied_eq, countSatisfied_eq, h.length_eq, h.countP_eq]

theorem Satisfied.replace {c s s' : Condition} {p : List ℕ} (hs : c.nodeAt p = some s)
    (h : s'.Satisfied K) (hc : c.Satisfied K) : (c.replace p s').Satisfied K := by
  induction p generalizing c with
  | nil => exact h
  | cons i p ih =>
    obtain ⟨n, cs, c', rfl, hc', hs⟩ := nodeAt_cons hs
    obtain ⟨hpos, hle⟩ := satisfied_threshold.mp hc
    refine satisfied_threshold.mpr ⟨hpos, hle.trans ?_⟩
    have hcount := countP_modify_add (q := (·.Satisfied K)) (f := (·.replace p s')) hc'
    by_cases hsat : c'.Satisfied K
    · rw [if_pos hsat, if_pos (ih hs hsat)] at hcount
      omega
    · rw [if_neg hsat] at hcount
      omega

/-- **What a condition asks for.** It verifies if and only if there is a selection of positions with
the root whose leaves pass and whose thresholds are positive and met by selected children. So some
leaf passes; the order of subconditions does not matter, at any node; and putting a leaf that passes
in the place of one that does not keeps what verified verified. -/
theorem verify_iff_selection (K : Crates) (c : Condition) :
    (c.verify K = .ok () ↔ ∃ S, c.IsSelection K S) ∧
    (c.verify K = .ok () → ∃ p leaf, c.nodeAt p = some leaf ∧ LeafPasses K leaf) ∧
    (∀ p n cs cs', c.nodeAt p = some (threshold n cs) → cs.Perm cs' →
      (c.replace p (threshold n cs')).verify K = c.verify K) ∧
    ∀ p s leaf, c.nodeAt p = some s → LeafPasses K leaf → c.verify K = .ok () →
      (c.replace p leaf).verify K = .ok () :=
  ⟨satisfied_iff_exists_selection c, exists_leafPasses,
    fun _ _ _ _ hs hperm ↦ verify_replace hs (verify_threshold_perm hperm),
    fun _ _ _ hs hleaf hc ↦ Satisfied.replace hs hleaf.satisfied hc⟩

end Zescrow.Condition
