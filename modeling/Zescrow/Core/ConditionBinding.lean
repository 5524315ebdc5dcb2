import Zescrow.Core.Condition
import Zescrow.Foundation.HashTree

/-!
# What a condition commitment binds

A commitment is the digest of a labelled tree that holds the public parameters. Trees with one
digest are equal unless SHA-256 collides on two of the strings hashed, so what the commitment binds
is what equality of these trees says: the shape, every hashlock hash, every Ed25519 key and message
and every threshold, but of a Secp256k1 node only the concatenation of key and message.

Two consequences follow. The public parameters are bound up to where that concatenation is cut. And
a condition that opens a commitment can lend its witnesses to the condition the commitment was made
from: keys that parse cut the concatenation at one place.
-/

open Foundation

namespace Zescrow

namespace Condition

/-! ## The committed tree -/

mutual

/-- The public parameters of a condition, as they are hashed. -/
def tree : Condition → HashTree
  | .hashlock h => .leaf (ascii "ZESCROW_COND_HASHLOCK_V1" ++ h.hash.1)
  | .ed25519 e => .leaf (ascii "ZESCROW_COND_ED25519_V1" ++ e.publicKey.1 ++ e.message)
  | .secp256k1 s => .leaf (ascii "ZESCROW_COND_SECP256K1_V1" ++ s.publicKey ++ s.message)
  | .threshold n cs => .node (ascii "ZESCROW_COND_THRESHOLD_V1" ++ toBE 4 (saturatingU32 n) ++
      toBE 4 (saturatingU32 cs.length)) (trees cs)

/-- The trees of the subconditions. -/
def trees : List Condition → List HashTree
  | [] => []
  | c :: cs => tree c :: trees cs

end

mutual

theorem commitment_eq_digest (K : Crates) :
    ∀ c : Condition, c.commitment K = c.tree.digest K.sha256
  | .hashlock _ => rfl
  | .ed25519 _ => rfl
  | .secp256k1 _ => rfl
  | .threshold n cs => by
    rw [commitment, tree, HashTree.digest, commitments_eq_digests K cs]

theorem commitments_eq_digests (K : Crates) :
    ∀ cs : List Condition, commitments K cs = HashTree.digests K.sha256 (trees cs)
  | [] => rfl
  | c :: cs => by
    rw [commitments, trees, HashTree.digests, commitment_eq_digest K c, commitments_eq_digests K cs]

end

/-- The byte strings hashed while computing the commitment. -/
def hashed (K : Crates) (c : Condition) : List Bytes := c.tree.inputs K.sha256

/-- The four domain tags differ before the shortest of them ends. -/
private theorem tag_ne {a b x y : Bytes} (h : a.take 14 ≠ b.take 14) (ha : 14 ≤ a.length)
    (hb : 14 ≤ b.length) : a ++ x ≠ b ++ y := by
  intro heq
  apply h
  have htake := congrArg (List.take 14) heq
  rwa [List.take_append_of_le_length ha, List.take_append_of_le_length hb] at htake

private theorem tag_not_prefix {a b x : Bytes} (h : a.take 14 ≠ b.take 14) (ha : 14 ≤ a.length)
    (hb : 14 ≤ b.length) : ¬a <+: b ++ x := by
  rintro ⟨y, hy⟩
  exact tag_ne h ha hb hy

mutual

theorem wellLabelled :
    ∀ c : Condition, c.tree.WellLabelled (ascii "ZESCROW_COND_THRESHOLD_V1") 33
  | .hashlock _ => tag_not_prefix (by decide) (by decide) (by decide)
  | .ed25519 _ => by
    rw [tree, List.append_assoc]
    exact tag_not_prefix (by decide) (by decide) (by decide)
  | .secp256k1 _ => by
    rw [tree, List.append_assoc]
    exact tag_not_prefix (by decide) (by decide) (by decide)
  | .threshold n cs => by
    refine ⟨?_, ⟨_, (List.append_assoc _ _ _).symm⟩, allWellLabelled cs⟩
    rw [List.length_append, List.length_append, length_toBE, length_toBE]
    rfl

theorem allWellLabelled : ∀ cs : List Condition,
    HashTree.AllWellLabelled (ascii "ZESCROW_COND_THRESHOLD_V1") 33 (trees cs)
  | [] => trivial
  | c :: cs => ⟨wellLabelled c, allWellLabelled cs⟩

end

/-! ## Conditions that agree up to witnesses -/

mutual

/-- The same shape, hashlock hashes and Ed25519 parameters at every node, thresholds related by `T`
and Secp256k1 nodes related by `R`. -/
def Agree (T : ℕ → ℕ → Prop) (R : Secp256k1 → Secp256k1 → Prop) : Condition → Condition → Prop
  | .hashlock h, .hashlock h' => h.hash = h'.hash
  | .ed25519 e, .ed25519 e' => e.publicKey = e'.publicKey ∧ e.message = e'.message
  | .secp256k1 s, .secp256k1 s' => R s s'
  | .threshold n cs, .threshold n' cs' => T n n' ∧ AgreeAll T R cs cs'
  | _, _ => False

/-- `Agree` position by position, on lists of one length. -/
def AgreeAll (T : ℕ → ℕ → Prop) (R : Secp256k1 → Secp256k1 → Prop) :
    List Condition → List Condition → Prop
  | [], [] => True
  | c :: cs, c' :: cs' => Agree T R c c' ∧ AgreeAll T R cs cs'
  | _, _ => False

end

/-- The same shape and the same public parameters at every node: a difference is in witnesses. -/
def SamePublic : Condition → Condition → Prop :=
  Agree (· = ·) fun s s' ↦ s.publicKey = s'.publicKey ∧ s.message = s'.message

/-- The same public parameters, except that a Secp256k1 node only has the same key followed by
message. -/
def SameUpToSplit : Condition → Condition → Prop :=
  Agree (· = ·) fun s s' ↦ s.publicKey ++ s.message = s'.publicKey ++ s'.message

theorem AgreeAll.length_eq {T : ℕ → ℕ → Prop} {R : Secp256k1 → Secp256k1 → Prop} :
    ∀ {cs cs' : List Condition}, AgreeAll T R cs cs' → cs.length = cs'.length
  | [], [], _ => rfl
  | c :: cs, c' :: cs', h => by
    rw [AgreeAll] at h
    rw [List.length_cons, List.length_cons, h.2.length_eq]
  | [], _ :: _, h => h.elim
  | _ :: _, [], h => h.elim

/-- The same tree is hashed: a count that does not fit `u32` is hashed as the largest one. -/
def SameEncoding : Condition → Condition → Prop :=
  Agree (fun n n' ↦ saturatingU32 n = saturatingU32 n') fun s s' ↦
    s.publicKey ++ s.message = s'.publicKey ++ s'.message

theorem saturatingU32_lt (n : ℕ) : saturatingU32 n < 2 ^ 32 := by
  rw [saturatingU32]
  split <;> omega

private theorem leaf_ne {a b x y : Bytes} (h : a.take 14 ≠ b.take 14) (ha : 14 ≤ a.length)
    (hb : 14 ≤ b.length) : ¬HashTree.leaf (a ++ x) = .leaf (b ++ y) := by
  rw [HashTree.leaf.injEq]
  exact tag_ne h ha hb

private theorem threshold_label_inj {n n' m m' : ℕ} (hn : n < 2 ^ 32) (hn' : n' < 2 ^ 32) :
    ascii "ZESCROW_COND_THRESHOLD_V1" ++ toBE 4 n ++ toBE 4 m
      = ascii "ZESCROW_COND_THRESHOLD_V1" ++ toBE 4 n' ++ toBE 4 m' →
    n = n' := by
  intro h
  have hlen : (ascii "ZESCROW_COND_THRESHOLD_V1" ++ toBE 4 n).length
      = (ascii "ZESCROW_COND_THRESHOLD_V1" ++ toBE 4 n').length := by
    rw [List.length_append, List.length_append, length_toBE, length_toBE]
  have h' := ((append_inj_of_length hlen).mp h).1
  exact (toBE_inj hn hn').mp (List.append_cancel_left h')

mutual

/-- The tree determines a condition up to `SameEncoding`. -/
theorem tree_eq_iff : ∀ c c' : Condition, c.tree = c'.tree ↔ SameEncoding c c'
  | .hashlock h, .hashlock h' => by
    rw [tree, tree, HashTree.leaf.injEq, List.append_cancel_left_eq, SameEncoding, Agree,
      Subtype.ext_iff]
  | .ed25519 e, .ed25519 e' => by
    rw [tree, tree, HashTree.leaf.injEq, List.append_assoc, List.append_assoc,
      List.append_cancel_left_eq, append_inj_of_length (e.publicKey.2.trans e'.publicKey.2.symm),
      SameEncoding, Agree, Subtype.ext_iff]
  | .secp256k1 s, .secp256k1 s' => by
    rw [tree, tree, HashTree.leaf.injEq, List.append_assoc, List.append_assoc,
      List.append_cancel_left_eq, SameEncoding, Agree]
  | .threshold n cs, .threshold n' cs' => by
    rw [tree, tree, HashTree.node.injEq, trees_eq_iff cs cs', SameEncoding, Agree]
    constructor
    · rintro ⟨hlabel, hcs⟩
      exact ⟨threshold_label_inj (saturatingU32_lt n) (saturatingU32_lt n') hlabel, hcs⟩
    · -- The count in the label is that of the list, which the relation fixes.
      rintro ⟨hn, hcs⟩
      rw [hn, hcs.length_eq]
      exact ⟨rfl, hcs⟩
  | .hashlock _, .ed25519 _ => by
    rw [tree, tree, List.append_assoc]
    exact iff_of_false (leaf_ne (by decide) (by decide) (by decide)) id
  | .hashlock _, .secp256k1 _ => by
    rw [tree, tree, List.append_assoc]
    exact iff_of_false (leaf_ne (by decide) (by decide) (by decide)) id
  | .ed25519 _, .hashlock _ => by
    rw [tree, tree, List.append_assoc]
    exact iff_of_false (leaf_ne (by decide) (by decide) (by decide)) id
  | .ed25519 _, .secp256k1 _ => by
    rw [tree, tree, List.append_assoc, List.append_assoc]
    exact iff_of_false (leaf_ne (by decide) (by decide) (by decide)) id
  | .secp256k1 _, .hashlock _ => by
    rw [tree, tree, List.append_assoc]
    exact iff_of_false (leaf_ne (by decide) (by decide) (by decide)) id
  | .secp256k1 _, .ed25519 _ => by
    rw [tree, tree, List.append_assoc, List.append_assoc]
    exact iff_of_false (leaf_ne (by decide) (by decide) (by decide)) id
  | .hashlock _, .threshold _ _ => iff_of_false (nomatch ·) id
  | .ed25519 _, .threshold _ _ => iff_of_false (nomatch ·) id
  | .secp256k1 _, .threshold _ _ => iff_of_false (nomatch ·) id
  | .threshold _ _, .hashlock _ => iff_of_false (nomatch ·) id
  | .threshold _ _, .ed25519 _ => iff_of_false (nomatch ·) id
  | .threshold _ _, .secp256k1 _ => iff_of_false (nomatch ·) id

theorem trees_eq_iff : ∀ cs cs' : List Condition, trees cs = trees cs' ↔
    AgreeAll (fun n n' ↦ saturatingU32 n = saturatingU32 n')
      (fun s s' ↦ s.publicKey ++ s.message = s'.publicKey ++ s'.message) cs cs'
  | [], [] => iff_of_true rfl trivial
  | [], _ :: _ => iff_of_false (nomatch ·) id
  | _ :: _, [] => iff_of_false (nomatch ·) id
  | c :: cs, c' :: cs' => by
    rw [trees, trees, List.cons.injEq, tree_eq_iff c c', trees_eq_iff cs cs', AgreeAll]
    exact Iff.rfl

end

/-- Equal commitments come from the same encoding, or from a collision of SHA-256. -/
theorem sameEncoding_or_collides {K : Crates} {c c' : Condition}
    (h : c.commitment K = c'.commitment K) :
    SameEncoding c c' ∨ Collides K.sha256 (c.hashed K ++ c'.hashed K) := by
  rw [commitment_eq_digest, commitment_eq_digest] at h
  refine (HashTree.eq_or_collides_of_digest_eq (by norm_num) c.wellLabelled c'.wellLabelled h).imp
    (fun htree ↦ ?_) id
  exact (tree_eq_iff c c').mp htree

theorem SameEncoding.commitment_eq {K : Crates} {c c' : Condition} (h : SameEncoding c c') :
    c.commitment K = c'.commitment K := by
  rw [commitment_eq_digest, commitment_eq_digest, (tree_eq_iff c c').mpr h]

mutual

theorem Agree.mono {T T' : ℕ → ℕ → Prop} {R R' : Secp256k1 → Secp256k1 → Prop}
    (hT : ∀ n n', T n n' → T' n n') (hR : ∀ s s', R s s' → R' s s') :
    ∀ {c c' : Condition}, Agree T R c c' → Agree T' R' c c'
  | .hashlock _, .hashlock _, h => h
  | .ed25519 _, .ed25519 _, h => h
  | .secp256k1 s, .secp256k1 s', h => hR s s' h
  | .threshold n _, .threshold n' _, h => ⟨hT n n' h.1, h.2.mono hT hR⟩
  | .hashlock _, .ed25519 _, h | .hashlock _, .secp256k1 _, h | .hashlock _, .threshold _ _, h
  | .ed25519 _, .hashlock _, h | .ed25519 _, .secp256k1 _, h | .ed25519 _, .threshold _ _, h
  | .secp256k1 _, .hashlock _, h | .secp256k1 _, .ed25519 _, h | .secp256k1 _, .threshold _ _, h
  | .threshold _ _, .hashlock _, h | .threshold _ _, .ed25519 _, h
  | .threshold _ _, .secp256k1 _, h => h.elim

theorem AgreeAll.mono {T T' : ℕ → ℕ → Prop} {R R' : Secp256k1 → Secp256k1 → Prop}
    (hT : ∀ n n', T n n' → T' n n') (hR : ∀ s s', R s s' → R' s s') :
    ∀ {cs cs' : List Condition}, AgreeAll T R cs cs' → AgreeAll T' R' cs cs'
  | [], [], _ => trivial
  | _ :: _, _ :: _, h => ⟨h.1.mono hT hR, h.2.mono hT hR⟩
  | [], _ :: _, h | _ :: _, [], h => h.elim

end

/-- The commitment does not depend on the witnesses. -/
theorem SamePublic.commitment_eq {K : Crates} {c c' : Condition} (h : SamePublic c c') :
    c.commitment K = c'.commitment K := by
  refine SameEncoding.commitment_eq (Agree.mono (fun n n' hn ↦ ?_) (fun s s' hs ↦ ?_) h)
  · rw [hn]
  · rw [hs.1, hs.2]

/-! ## Binding of the public parameters -/

mutual

/-- Thresholds and subcondition counts fit in `u32`. -/
def FitsU32 : Condition → Prop
  | .threshold n cs => n < 2 ^ 32 ∧ cs.length < 2 ^ 32 ∧ AllFitU32 cs
  | .hashlock _ | .ed25519 _ | .secp256k1 _ => True

/-- `FitsU32` of every member. -/
def AllFitU32 : List Condition → Prop
  | [] => True
  | c :: cs => FitsU32 c ∧ AllFitU32 cs

end

theorem saturatingU32_of_lt {n : ℕ} (h : n < 2 ^ 32) : saturatingU32 n = n := if_pos h

mutual

/-- Where counts fit, nothing saturates. -/
theorem sameEncoding_iff : ∀ {c c' : Condition}, c.FitsU32 → c'.FitsU32 →
    (SameEncoding c c' ↔ SameUpToSplit c c')
  | .threshold n cs, .threshold n' cs', h, h' => by
    rw [FitsU32] at h h'
    rw [SameEncoding, SameUpToSplit, Agree, Agree, saturatingU32_of_lt h.1,
      saturatingU32_of_lt h'.1, sameEncodingAll_iff h.2.2 h'.2.2]
  | .hashlock _, c', _, _ => by cases c' <;> rfl
  | .ed25519 _, c', _, _ => by cases c' <;> rfl
  | .secp256k1 _, c', _, _ => by cases c' <;> rfl
  | .threshold _ _, .hashlock _, _, _ => Iff.rfl
  | .threshold _ _, .ed25519 _, _, _ => Iff.rfl
  | .threshold _ _, .secp256k1 _, _, _ => Iff.rfl

theorem sameEncodingAll_iff : ∀ {cs cs' : List Condition}, AllFitU32 cs → AllFitU32 cs' →
    (AgreeAll (fun n n' ↦ saturatingU32 n = saturatingU32 n')
      (fun s s' ↦ s.publicKey ++ s.message = s'.publicKey ++ s'.message) cs cs' ↔
    AgreeAll (· = ·) (fun s s' ↦ s.publicKey ++ s.message = s'.publicKey ++ s'.message) cs cs')
  | [], [], _, _ => Iff.rfl
  | [], _ :: _, _, _ => Iff.rfl
  | _ :: _, [], _, _ => Iff.rfl
  | c :: cs, c' :: cs', h, h' => by
    rw [AllFitU32] at h h'
    rw [AgreeAll, AgreeAll, sameEncodingAll_iff h.2 h'.2]
    exact and_congr_left' (sameEncoding_iff h.1 h'.1)

end

mutual

/-- Some Secp256k1 node of the two conditions cuts its key from its message differently. -/
def Recut : Condition → Condition → Prop
  | .secp256k1 s, .secp256k1 s' => s.publicKey.length ≠ s'.publicKey.length
  | .threshold _ cs, .threshold _ cs' => RecutSome cs cs'
  | _, _ => False

/-- `Recut` at some position. -/
def RecutSome : List Condition → List Condition → Prop
  | c :: cs, c' :: cs' => Recut c c' ∨ RecutSome cs cs'
  | _, _ => False

end

mutual

/-- Up to splits, the public parameters are the same when no node is cut differently. -/
theorem samePublic_iff : ∀ {c c' : Condition},
    SamePublic c c' ↔ SameUpToSplit c c' ∧ ¬Recut c c'
  | .secp256k1 s, .secp256k1 s' => by
    rw [SamePublic, SameUpToSplit, Agree, Agree, Recut, not_not]
    constructor
    · rintro ⟨hkey, hmsg⟩
      rw [hkey, hmsg]
      exact ⟨rfl, rfl⟩
    · -- One string cut at one place gives one key and one message.
      rintro ⟨h, hlen⟩
      exact (append_inj_of_length hlen).mp h
  | .threshold n cs, .threshold n' cs' => by
    rw [SamePublic, SameUpToSplit, Agree, Agree, Recut, samePublicAll_iff, and_assoc]
  | .hashlock _, .hashlock _ => (and_iff_left id).symm
  | .ed25519 _, .ed25519 _ => (and_iff_left id).symm
  | .hashlock _, .ed25519 _ | .hashlock _, .secp256k1 _ | .hashlock _, .threshold _ _
  | .ed25519 _, .hashlock _ | .ed25519 _, .secp256k1 _ | .ed25519 _, .threshold _ _
  | .secp256k1 _, .hashlock _ | .secp256k1 _, .ed25519 _ | .secp256k1 _, .threshold _ _
  | .threshold _ _, .hashlock _ | .threshold _ _, .ed25519 _ | .threshold _ _, .secp256k1 _ =>
    iff_of_false id fun h ↦ h.1

theorem samePublicAll_iff : ∀ {cs cs' : List Condition},
    AgreeAll (· = ·) (fun s s' ↦ s.publicKey = s'.publicKey ∧ s.message = s'.message) cs cs' ↔
    AgreeAll (· = ·) (fun s s' ↦ s.publicKey ++ s.message = s'.publicKey ++ s'.message) cs cs' ∧
      ¬RecutSome cs cs'
  | [], [] => (and_iff_left id).symm
  | [], _ :: _ => iff_of_false id fun h ↦ h.1
  | _ :: _, [] => iff_of_false id fun h ↦ h.1
  | c :: cs, c' :: cs' => by
    rw [AgreeAll, AgreeAll, RecutSome, samePublicAll_iff, not_or, and_and_and_comm]
    exact and_congr_left' samePublic_iff

end

/-- **What a commitment binds.** Equal commitments force equal public parameters (or a collision of
SHA-256 among the strings hashed) except when the conditions agree up to the split of Secp256k1
keys from messages and are cut differently somewhere. -/
theorem commitment_binds_iff (K : Crates) (c c' : Condition) (hc : c.FitsU32) (hc' : c'.FitsU32) :
    (c.commitment K = c'.commitment K →
      Collides K.sha256 (c.hashed K ++ c'.hashed K) ∨ SamePublic c c') ↔
    (SameUpToSplit c c' → ¬Recut c c') ∨ Collides K.sha256 (c.hashed K ++ c'.hashed K) := by
  constructor
  · intro h
    -- Conditions that agree up to the split have one commitment.
    by_cases hsplit : SameUpToSplit c c'
    · have hcommit := ((sameEncoding_iff hc hc').mpr hsplit).commitment_eq (K := K)
      rcases h hcommit with hcol | hpub
      · exact Or.inr hcol
      · exact Or.inl fun _ ↦ (samePublic_iff.mp hpub).2
    · exact Or.inl fun h' ↦ absurd h' hsplit
  · rintro (h | hcol) hcommit
    · rcases sameEncoding_or_collides hcommit with henc | hcol
      · have hsplit := (sameEncoding_iff hc hc').mp henc
        exact Or.inr (samePublic_iff.mpr ⟨hsplit, h hsplit⟩)
      · exact Or.inl hcol
    · exact Or.inl hcol

/-- One public condition with two different witnesses. -/
theorem commitment_binds_iff_sample :
    let c := Condition.threshold 1 [.hashlock ⟨.zero 32, [1]⟩, .secp256k1 ⟨[2], [], [3]⟩]
    let c' := Condition.threshold 1 [.hashlock ⟨.zero 32, []⟩, .secp256k1 ⟨[2], [7], [3]⟩]
    (c.commitment .sample = c'.commitment .sample →
      Collides Crates.sample.sha256 (c.hashed .sample ++ c'.hashed .sample) ∨ SamePublic c c') ↔
    (SameUpToSplit c c' → ¬Recut c c') ∨
      Collides Crates.sample.sha256 (c.hashed .sample ++ c'.hashed .sample) :=
  commitment_binds_iff .sample _ _ ⟨by norm_num, by simp, trivial, trivial, trivial⟩
    ⟨by norm_num, by simp, trivial, trivial, trivial⟩

/-- A key that lends its last byte to the message: one string is hashed, for two conditions. -/
theorem commitment_eq_of_recut :
    let c := Condition.secp256k1 ⟨[2], [], [3]⟩
    let c' := Condition.secp256k1 ⟨[2, 3], [], []⟩
    c.FitsU32 ∧ c'.FitsU32 ∧ c.commitment .sample = c'.commitment .sample ∧
      ¬(Collides Crates.sample.sha256 (c.hashed .sample ++ c'.hashed .sample) ∨
        SamePublic c c') := by
  refine ⟨trivial, trivial, rfl, ?_⟩
  rintro (⟨x, hx, y, hy, hne, -⟩ | h)
  · have hx' := List.mem_pair.mp hx
    have hy' := List.mem_pair.mp hy
    exact hne ((hx'.elim id id).trans (hy'.elim id id).symm)
  · exact absurd h.1 (by decide)

/-! ## Opening a commitment -/

mutual

/-- `c₀` with the preimages and signatures that `c` holds at the same positions. -/
def withWitness : Condition → Condition → Condition
  | .hashlock h₀, .hashlock h => .hashlock { h₀ with preimage := h.preimage }
  | .ed25519 e₀, .ed25519 e => .ed25519 { e₀ with signature := e.signature }
  | .secp256k1 s₀, .secp256k1 s => .secp256k1 { s₀ with signature := s.signature }
  | .threshold n₀ cs₀, .threshold _ cs => .threshold n₀ (withWitnesses cs₀ cs)
  | c₀, _ => c₀

/-- `withWitness` position by position. -/
def withWitnesses : List Condition → List Condition → List Condition
  | c₀ :: cs₀, c :: cs => withWitness c₀ c :: withWitnesses cs₀ cs
  | cs₀, _ => cs₀

end

mutual

/-- Every Secp256k1 public key parses. -/
def KeysParse (K : Crates) : Condition → Prop
  | .secp256k1 s => ∃ k, K.secp256k1.parseKey s.publicKey = .ok k
  | .threshold _ cs => AllKeysParse K cs
  | .hashlock _ | .ed25519 _ => True

/-- `KeysParse` of every member. -/
def AllKeysParse (K : Crates) : List Condition → Prop
  | [] => True
  | c :: cs => KeysParse K c ∧ AllKeysParse K cs

end

end Condition

/-- The scheme accepts only non-empty keys, whose length their first byte determines. -/
def SignatureScheme.KeysFramed (S : SignatureScheme) (len : UInt8 → ℕ) : Prop :=
  ∀ b k, S.parseKey b = .ok k → ∃ x rest, b = x :: rest ∧ b.length = len x

/-- Two keys that parse are cut from one string at the same place. -/
theorem SignatureScheme.KeysFramed.split_eq {S : SignatureScheme} {len : UInt8 → ℕ}
    (hS : S.KeysFramed len) {pk pk' msg msg' : Bytes} (hpk : ∃ k, S.parseKey pk = .ok k)
    (hpk' : ∃ k, S.parseKey pk' = .ok k) (h : pk ++ msg = pk' ++ msg') : pk = pk' ∧ msg = msg' := by
  obtain ⟨k, hk⟩ := hpk
  obtain ⟨k', hk'⟩ := hpk'
  obtain ⟨x, rest, rfl, hlen⟩ := hS pk k hk
  obtain ⟨x', rest', rfl, hlen'⟩ := hS pk' k' hk'
  have hx : x = x' := (List.cons.inj h).1
  subst hx
  exact (append_inj_of_length (hlen.trans hlen'.symm)).mp h

namespace Condition

theorem le_of_saturatingU32_eq {n n₀ : ℕ} (h : saturatingU32 n = saturatingU32 n₀)
    (hn₀ : n₀ < 2 ^ 32) : n₀ ≤ n ∧ (0 < n → 0 < n₀) := by
  rw [saturatingU32_of_lt hn₀, saturatingU32] at h
  split at h <;> omega

mutual

/-- A condition that verifies lends its witnesses to any condition with the same encoding whose keys
parse and whose counts fit. -/
theorem satisfied_withWitness {K : Crates} {len : UInt8 → ℕ} (hS : K.secp256k1.KeysFramed len) :
    ∀ {c c₀ : Condition}, SameEncoding c c₀ → c₀.FitsU32 → c₀.KeysParse K → c.Satisfied K →
      (c₀.withWitness c).Satisfied K
  | .hashlock h, .hashlock h₀, heq, _, _, hsat => by
    rw [SameEncoding, Agree] at heq
    rw [satisfied_hashlock] at hsat
    rw [withWitness, satisfied_hashlock]
    exact hsat.trans heq
  | .ed25519 e, .ed25519 e₀, heq, _, _, hsat => by
    rw [SameEncoding, Agree] at heq
    rw [satisfied_ed25519, heq.1, heq.2] at hsat
    rw [withWitness, satisfied_ed25519]
    exact hsat
  | .secp256k1 s, .secp256k1 s₀, heq, _, hkeys, hsat => by
    rw [SameEncoding, Agree] at heq
    rw [KeysParse] at hkeys
    rw [satisfied_secp256k1] at hsat
    -- Both keys parse, so the shared string has one cut.
    obtain ⟨hkey, hmsg⟩ := hS.split_eq (SignatureScheme.parseKey_of_check hsat) hkeys heq
    rw [hkey, hmsg] at hsat
    rw [withWitness, satisfied_secp256k1]
    exact hsat
  | .threshold n cs, .threshold n₀ cs₀, heq, hfit, hkeys, hsat => by
    rw [SameEncoding, Agree] at heq
    rw [FitsU32] at hfit
    rw [KeysParse] at hkeys
    rw [satisfied_threshold] at hsat
    rw [withWitness, satisfied_threshold]
    have hle := le_of_saturatingU32_eq heq.1 hfit.1
    have hcount := countP_withWitnesses hS heq.2 hfit.2.2 hkeys
    exact ⟨hle.2 hsat.1, (hle.1.trans hsat.2).trans hcount⟩

theorem countP_withWitnesses {K : Crates} {len : UInt8 → ℕ} (hS : K.secp256k1.KeysFramed len) :
    ∀ {cs cs₀ : List Condition},
      AgreeAll (fun n n' ↦ saturatingU32 n = saturatingU32 n')
        (fun s s' ↦ s.publicKey ++ s.message = s'.publicKey ++ s'.message) cs cs₀ →
      AllFitU32 cs₀ → AllKeysParse K cs₀ →
      cs.countP (·.Satisfied K) ≤ (withWitnesses cs₀ cs).countP (·.Satisfied K)
  | [], _, _, _, _ => Nat.zero_le _
  | c :: cs, c₀ :: cs₀, heq, hfit, hkeys => by
    rw [AgreeAll] at heq
    rw [AllFitU32] at hfit
    rw [AllKeysParse] at hkeys
    have htail := countP_withWitnesses hS heq.2 hfit.2 hkeys.2
    have hhead : c.Satisfied K → (c₀.withWitness c).Satisfied K :=
      satisfied_withWitness hS heq.1 hfit.1 hkeys.1
    rw [withWitnesses, List.countP_cons, List.countP_cons]
    refine Nat.add_le_add htail ?_
    by_cases hc : c.Satisfied K
    · simp [hc, hhead hc]
    · simp [hc]

end

/-- **Opening a commitment.** A condition chosen freely that verifies and has the commitment of an
honest condition satisfies the honest condition with its own witnesses, unless SHA-256 collides on
two of the strings hashed for the two commitments. -/
theorem satisfied_or_collides_of_commitment_eq (K : Crates) (len : UInt8 → ℕ)
    (hS : K.secp256k1.KeysFramed len) (c₀ c : Condition) (hkeys : c₀.KeysParse K)
    (hfit : c₀.FitsU32) (hcommit : c.commitment K = c₀.commitment K) (hsat : c.Satisfied K) :
    Collides K.sha256 (c.hashed K ++ c₀.hashed K) ∨ (c₀.withWitness c).Satisfied K := by
  rcases sameEncoding_or_collides hcommit with henc | hcol
  · exact Or.inr (satisfied_withWitness hS henc hfit hkeys hsat)
  · exact Or.inl hcol

private theorem keysFramed_sample : Crates.sample.secp256k1.KeysFramed fun _ ↦ 33 := by
  intro b k h
  change (if b = secp256k1Generator then Except.ok b else Except.error "invalid key") = _ at h
  split at h
  · next hb =>
    subst hb
    exact ⟨_, _, rfl, rfl⟩
  · exact absurd h error_ne_ok

/-- Either a preimage or a signature is asked for, and the preimage is exhibited. -/
theorem satisfied_or_collides_sample :
    let c₀ := Condition.threshold 1 [.hashlock ⟨Crates.sample.sha256 (ascii "secret"), []⟩,
      .secp256k1 ⟨secp256k1Generator, [], ascii "release"⟩]
    let c := Condition.threshold 1
      [.hashlock ⟨Crates.sample.sha256 (ascii "secret"), ascii "secret"⟩,
        .secp256k1 ⟨secp256k1Generator, [1], ascii "release"⟩]
    Collides Crates.sample.sha256 (c.hashed .sample ++ c₀.hashed .sample) ∨
      (c₀.withWitness c).Satisfied .sample := by
  refine satisfied_or_collides_of_commitment_eq .sample (fun _ ↦ 33) keysFramed_sample _ _
    ⟨trivial, ⟨secp256k1Generator, rfl⟩, trivial⟩
    ⟨by norm_num, by simp, trivial, trivial, trivial⟩ rfl ?_
  refine satisfied_threshold.mpr ⟨one_pos, List.countP_pos_iff.mpr ⟨_, List.mem_cons_self, ?_⟩⟩
  exact decide_eq_true (satisfied_hashlock.mpr rfl)

end Condition

end Zescrow
