import Zescrow.Foundation.Bytes

/-!
# Commitments to labelled trees

A labelled tree is committed to from the leaves up: a leaf hashes its label, an inner node hashes
its label followed by the digests of its children. Nothing is assumed of the hash. What binding
means is then that two trees with one digest are equal unless two different strings hashed on the
way have the same digest, a *collision* that can be exhibited.

For that the hashed string must say where its label ends. Leaves and inner nodes are told apart by
a prefix only inner labels have, and inner labels have one length; leaf labels are free to be
anything else. These are the two conditions of `WellLabelled`.
-/

namespace Foundation

/-- Two different members of `xs` with one hash. -/
def Collides {γ : Type*} (hash : Bytes → γ) (xs : List Bytes) : Prop :=
  ∃ x ∈ xs, ∃ y ∈ xs, x ≠ y ∧ hash x = hash y

theorem Collides.append_mono {γ : Type*} {hash : Bytes → γ} {xs xs' ys ys' : List Bytes}
    (h : Collides hash (xs ++ ys)) (hxs : xs ⊆ xs') (hys : ys ⊆ ys') :
    Collides hash (xs' ++ ys') := by
  have hsub : xs ++ ys ⊆ xs' ++ ys' := List.append_subset.mpr
    ⟨List.subset_append_of_subset_left _ hxs, List.subset_append_of_subset_right _ hys⟩
  obtain ⟨x, hx, y, hy, hne, heq⟩ := h
  exact ⟨x, hsub hx, y, hsub hy, hne, heq⟩

/-- Equal hashes of listed strings give equal strings or a collision. -/
theorem eq_or_collides {γ : Type*} {hash : Bytes → γ} (xs : List Bytes) {x y : Bytes}
    (hx : x ∈ xs) (hy : y ∈ xs) (h : hash x = hash y) : x = y ∨ Collides hash xs := by
  by_cases heq : x = y
  · exact Or.inl heq
  · exact Or.inr ⟨x, hx, y, hy, heq, h⟩

/-- A finite tree whose nodes carry byte strings. -/
inductive HashTree where
  | leaf (label : Bytes)
  | node (label : Bytes) (children : List HashTree)

namespace HashTree

variable {n : ℕ} (hash : Bytes → FixedBytes n)

mutual

/-- The digest of a tree. -/
def digest : HashTree → FixedBytes n
  | .leaf label => hash label
  | .node label children => hash (label ++ digests children)

/-- The digests of a list of trees, one after the other. -/
def digests : List HashTree → Bytes
  | [] => []
  | t :: ts => (digest t).1 ++ digests ts

end

mutual

/-- The strings hashed while computing a digest. -/
def inputs : HashTree → List Bytes
  | .leaf label => [label]
  | .node label children => (label ++ digests hash children) :: inputsOf children

/-- The strings hashed while computing the digests of a list of trees. -/
def inputsOf : List HashTree → List Bytes
  | [] => []
  | t :: ts => inputs t ++ inputsOf ts

end

mutual

/-- Inner labels have length `k` and start with `tag`; no leaf label does. -/
def WellLabelled (tag : Bytes) (k : ℕ) : HashTree → Prop
  | .leaf label => ¬tag <+: label
  | .node label children => label.length = k ∧ tag <+: label ∧ AllWellLabelled tag k children

/-- `WellLabelled` of every member. -/
def AllWellLabelled (tag : Bytes) (k : ℕ) : List HashTree → Prop
  | [] => True
  | t :: ts => WellLabelled tag k t ∧ AllWellLabelled tag k ts

end

theorem length_digests (ts : List HashTree) : (digests hash ts).length = n * ts.length := by
  induction ts with
  | nil => rfl
  | cons t ts ih =>
    rw [digests, List.length_append, (digest hash t).2, ih, List.length_cons]
    ring

variable {hash}

mutual

/-- **Binding.** Well-labelled trees with one digest are equal, or the hash collides on two of the
strings hashed for them. -/
theorem eq_or_collides_of_digest_eq {tag : Bytes} {k : ℕ} (hn : 0 < n) :
    ∀ {t u : HashTree}, WellLabelled tag k t → WellLabelled tag k u →
      digest hash t = digest hash u → t = u ∨ Collides hash (inputs hash t ++ inputs hash u)
  | .leaf l, .leaf l', _, _, h => by
    rw [digest, digest] at h
    refine (eq_or_collides (inputs hash (.leaf l) ++ inputs hash (.leaf l')) ?_ ?_ h).imp
      (congrArg leaf) id <;> simp [inputs]
  | .leaf l, .node l' us, ht, hu, h => by
    rw [digest, digest] at h
    simp only [WellLabelled] at ht hu
    refine (eq_or_collides (inputs hash (.leaf l) ++ inputs hash (.node l' us))
      ?_ ?_ h).imp (fun heq ↦ absurd ?_ ht) id
    · simp [inputs]
    · simp [inputs]
    · exact heq ▸ hu.2.1.trans (List.prefix_append _ _)
  | .node l ts, .leaf l', ht, hu, h => by
    rw [digest, digest] at h
    simp only [WellLabelled] at ht hu
    refine (eq_or_collides (inputs hash (.node l ts) ++ inputs hash (.leaf l'))
      ?_ ?_ h).imp (fun heq ↦ absurd ?_ hu) id
    · simp [inputs]
    · simp [inputs]
    · exact heq ▸ ht.2.1.trans (List.prefix_append _ _)
  | .node l ts, .node l' us, ht, hu, h => by
    rw [digest, digest] at h
    simp only [WellLabelled] at ht hu
    obtain ⟨hl, -, hts⟩ := ht
    obtain ⟨hl', -, hus⟩ := hu
    rcases eq_or_collides (inputs hash (.node l ts) ++ inputs hash (.node l' us))
      (by simp [inputs]) (by simp [inputs]) h with heq | hcol
    · -- Inner labels have one length, so the digests of the children line up as well.
      obtain ⟨rfl, hds⟩ := List.append_inj heq (hl.trans hl'.symm)
      rcases eq_or_collides_of_digests_eq hn hts hus hds with rfl | hcol
      · exact Or.inl rfl
      · rw [inputs, inputs]
        exact Or.inr
          (hcol.append_mono (List.subset_cons_self _ _) (List.subset_cons_self _ _))
    · exact Or.inr hcol

theorem eq_or_collides_of_digests_eq {tag : Bytes} {k : ℕ} (hn : 0 < n) :
    ∀ {ts us : List HashTree}, AllWellLabelled tag k ts → AllWellLabelled tag k us →
      digests hash ts = digests hash us →
      ts = us ∨ Collides hash (inputsOf hash ts ++ inputsOf hash us)
  | [], [], _, _, _ => Or.inl rfl
  -- Digests are not empty, so the lists have one length.
  | [], u :: us, _, _, h => by
    have hlen := congrArg List.length h
    rw [length_digests, length_digests, List.length_nil, List.length_cons] at hlen
    simp at hlen
    omega
  | t :: ts, [], _, _, h => by
    have hlen := congrArg List.length h
    rw [length_digests, length_digests, List.length_nil, List.length_cons] at hlen
    simp at hlen
    omega
  | t :: ts, u :: us, hts, hus, h => by
    simp only [AllWellLabelled] at hts hus
    rw [digests, digests] at h
    obtain ⟨hd, hds⟩ := List.append_inj h ((digest hash t).2.trans (digest hash u).2.symm)
    rcases eq_or_collides_of_digest_eq hn hts.1 hus.1 (Subtype.ext hd) with rfl | hcol
    · rcases eq_or_collides_of_digests_eq hn hts.2 hus.2 hds with rfl | hcol
      · exact Or.inl rfl
      · rw [inputsOf, inputsOf]
        exact Or.inr
          (hcol.append_mono (List.subset_append_right _ _) (List.subset_append_right _ _))
    · rw [inputsOf, inputsOf]
      exact Or.inr
        (hcol.append_mono (List.subset_append_left _ _) (List.subset_append_left _ _))

end

end HashTree

end Foundation
