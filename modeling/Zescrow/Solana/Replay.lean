import Zescrow.Solana.Journal
import Zescrow.Solana.ProofGate
import Zescrow.Solana.Runs

/-!
# How many settlements a receipt authorizes

A receipt is good for the digest of one journal, so it settles one escrow as long as no two escrows
reconstruct the same journal. The journal holds the parties, the id, the amount and the condition.
The id is the sender's choice, and the address derived from it is free again after a settlement;
what keeps two journals apart is therefore only that no creation repeats the terms of an earlier
one, and the program does not see to that.
-/

open Foundation

namespace Zescrow.Solana

/-! ## Runs without repeated terms -/

/-- The journals of the conditioned escrows created so far. -/
def World.journals (w : World) : List Bytes :=
  (w.created.filter (·.condition ≠ noCondition)).map reconstructJournal

/-- The action creates a conditioned escrow on the terms of an earlier one. -/
def Repeats (R : Runtime) (w : World) : Action → Prop
  | .create sender recipient escrowAccount args =>
    (∃ r, createEscrow R sender recipient escrowAccount args w.accounts = .ok r) ∧
      args.condition ≠ noCondition ∧
      (newEscrow R sender recipient args).terms ∈ w.created.map EscrowAccount.terms
  | _ => False

theorem mem_journals {w : World} {e : EscrowAccount} (hcond : e.condition ≠ noCondition) :
    reconstructJournal e ∈ w.journals ↔ e.terms ∈ w.created.map EscrowAccount.terms := by
  rw [World.journals, List.mem_map, List.mem_map]
  constructor
  · rintro ⟨e', he', heq⟩
    exact ⟨e', List.mem_of_mem_filter he', reconstructJournal_inj.mp heq⟩
  · rintro ⟨e', he', heq⟩
    -- The condition is among the terms, so the earlier escrow is conditioned as well.
    have hcond' : e'.condition = e.condition := congrArg (·.2.2.2.2) heq
    refine ⟨e', List.mem_filter.mpr ⟨he', ?_⟩, reconstructJournal_inj.mpr heq⟩
    rw [hcond']
    exact decide_eq_true hcond

theorem journals_afterCreate (w : World) (accounts : Accounts) (a : Pubkey) (e : EscrowAccount) :
    (w.afterCreate accounts a e).journals
      = if e.condition ≠ noCondition then w.journals ++ [reconstructJournal e] else w.journals := by
  rw [World.journals, World.afterCreate, List.filter_append, List.map_append, World.journals]
  by_cases hcond : e.condition ≠ noCondition
  · rw [if_pos hcond, List.filter_singleton, decide_eq_true hcond, cond_true, List.map_singleton]
  · rw [if_neg hcond, List.filter_singleton, decide_eq_false hcond, cond_false, List.map_nil,
      List.append_nil]

/-- A step keeps the journals apart exactly when it does not repeat the terms of an earlier
creation. -/
theorem nodup_journals_step (R : Runtime) (w : World) (action : Action) :
    (w.step R action).journals.Nodup ↔ w.journals.Nodup ∧ ¬Repeats R w action := by
  have hsame {w' : World} (h : w'.created = w.created) (hrep : ¬Repeats R w action) :
      w'.journals.Nodup ↔ w.journals.Nodup ∧ ¬Repeats R w action := by
    rw [World.journals, h, and_iff_left hrep, World.journals]
  cases action with
  | create sender recipient escrowAccount args =>
    rw [World.step]
    split
    · next e h =>
      -- A creation that fails repeats nothing.
      refine hsame rfl fun hrep ↦ ?_
      obtain ⟨⟨r, hr⟩, -⟩ := hrep
      exact absurd (h.symm.trans hr) error_ne_ok
    · next accounts e h =>
      have hrepeats : Repeats R w (.create sender recipient escrowAccount args) ↔
          (newEscrow R sender recipient args).condition ≠ noCondition ∧
            reconstructJournal (newEscrow R sender recipient args) ∈ w.journals := by
        constructor
        · rintro ⟨-, hcond, hmem⟩
          exact ⟨hcond, (mem_journals hcond).mpr hmem⟩
        · rintro ⟨hcond, hmem⟩
          exact ⟨⟨_, h⟩, hcond, (mem_journals hcond).mp hmem⟩
      rw [hrepeats, journals_afterCreate]
      by_cases hcond : (newEscrow R sender recipient args).condition ≠ noCondition
      · rw [if_pos hcond, ← List.concat_eq_append, List.nodup_concat, and_iff_right hcond, and_comm]
      · rw [if_neg hcond, and_iff_left fun hrep ↦ hcond hrep.1]
  | finish => exact hsame (settle_created ..) id
  | cancel => exact hsame (settle_created ..) id
  | transfer source destination lamports =>
    refine hsame ?_ id
    rw [World.step]
    split
    · rfl
    · rfl
  | advance slots => exact hsame rfl id

/-! ## Receipts -/

/-- The seal of a conditioned release. -/
def Settlement.provingSeal (s : Settlement) : Option Bytes :=
  match s.kind with
  | .released receiptSeal => if s.escrow.condition ≠ noCondition then some receiptSeal else none
  | .refunded => none

/-- What a conditioned release was authorized by: the seal it was called with, and the digest of the
journal the seal was checked against. -/
def Settlement.receipt (sha256 : Bytes → FixedBytes 32) (s : Settlement) :
    Option (Bytes × FixedBytes 32) :=
  s.provingSeal.map fun receiptSeal ↦ (receiptSeal, sha256 (reconstructJournal s.escrow))

/-- The same as the router decoded it from the instruction data. -/
def Settlement.decodedReceipt (R : Runtime) (s : Settlement) : Option (Bytes × FixedBytes 32) :=
  s.provingSeal.bind fun receiptSeal ↦
    (routerVerify R.sha256 (fun _ ↦ true)
      (releaseProofData R.sha256 R.imageId s.escrow receiptSeal)).map
        fun args ↦ (args.receiptSeal, args.journalDigest)

/-- The seal of a conditioned release leaves the fields the program vouches for in place. -/
def Settlement.WellSealed (R : Runtime) (s : Settlement) : Prop :=
  ∀ receiptSeal, s.provingSeal = some receiptSeal →
    trustedFields R.sha256 R.imageId s.escrow <+:
      surplus receiptSeal ++ trustedFields R.sha256 R.imageId s.escrow

/-- The receipts of the settlements so far, oldest first. -/
def World.receipts (sha256 : Bytes → FixedBytes 32) (w : World) : List (Bytes × FixedBytes 32) :=
  w.settlements.filterMap (Settlement.receipt sha256)

/-- The receipts as the router decoded them. -/
def World.decodedReceipts (R : Runtime) (w : World) : List (Bytes × FixedBytes 32) :=
  w.settlements.filterMap (Settlement.decodedReceipt R)

theorem conditioned_of_provingSeal {s : Settlement} {receiptSeal : Bytes}
    (h : s.provingSeal = some receiptSeal) : s.escrow.condition ≠ noCondition := by
  intro hcond
  unfold Settlement.provingSeal at h
  split at h
  · rw [if_neg (not_not_intro hcond)] at h
    exact absurd h.symm (Option.some_ne_none _)
  · exact absurd h.symm (Option.some_ne_none _)

theorem receipt_eq_some {sha256 : Bytes → FixedBytes 32} {s : Settlement}
    {r : Bytes × FixedBytes 32} (h : s.receipt sha256 = some r) :
    s.escrow.condition ≠ noCondition ∧ r.2 = sha256 (reconstructJournal s.escrow) := by
  obtain ⟨receiptSeal, hseal, rfl⟩ := Option.map_eq_some_iff.mp h
  exact ⟨conditioned_of_provingSeal hseal, rfl⟩

theorem decodedReceipt_eq_some {R : Runtime} {s : Settlement} {r : Bytes × FixedBytes 32}
    (hs : s.WellSealed R) (h : s.decodedReceipt R = some r) :
    s.escrow.condition ≠ noCondition ∧ r.2 = R.sha256 (reconstructJournal s.escrow) := by
  obtain ⟨receiptSeal, hseal, h⟩ := Option.bind_eq_some_iff.mp h
  obtain ⟨args, haccept, rfl⟩ := Option.map_eq_some_iff.mp h
  have hfields := decoded_eq_trusted (hs receiptSeal hseal) haccept
  exact ⟨conditioned_of_provingSeal hseal, congrArg Prod.snd hfields⟩

/-! ## Different settlements have different journals -/

theorem pairwise_getElem? {β : Type*} {S : β → β → Prop} (hsymm : ∀ x y, S x y → S y x)
    {xs : List β} (h : xs.Pairwise S) {i j : ℕ} {x y : β} (hx : xs[i]? = some x)
    (hy : xs[j]? = some y) (hne : i ≠ j) : S x y := by
  obtain ⟨hi, rfl⟩ := List.getElem?_eq_some_iff.mp hx
  obtain ⟨hj, rfl⟩ := List.getElem?_eq_some_iff.mp hy
  have hall := List.pairwise_iff_getElem.mp h
  rcases Nat.lt_or_gt_of_ne hne with hlt | hgt
  · exact hall i j hi hj hlt
  · exact hsymm _ _ (hall j i hj hi hgt)

theorem journal_ne_of_index_ne {w : World} (h : w.journals.Nodup) {i j : ℕ} {e e' : EscrowAccount}
    (he : w.created[i]? = some e) (he' : w.created[j]? = some e') (hne : i ≠ j)
    (hcond : e.condition ≠ noCondition) (hcond' : e'.condition ≠ noCondition) :
    reconstructJournal e ≠ reconstructJournal e' := by
  have hpairwise : w.created.Pairwise fun e e' ↦ e.condition ≠ noCondition →
      e'.condition ≠ noCondition → reconstructJournal e ≠ reconstructJournal e' := by
    rw [World.journals, List.Nodup, List.pairwise_map, List.pairwise_filter] at h
    refine h.imp fun hne hc hc' ↦ ?_
    exact hne (decide_eq_true hc) (decide_eq_true hc')
  exact pairwise_getElem? (fun x y hxy hy hx ↦ (hxy hx hy).symm) hpairwise he he' hne hcond hcond'

/-- Any reading of the settlements that yields the digest of the journal of a conditioned escrow
yields nothing twice, unless two of the journals collide. -/
theorem nodup_digests {w : World} (hw : Tracked w) (h : w.journals.Nodup)
    {sha256 : Bytes → FixedBytes 32} {reading : Settlement → Option (Bytes × FixedBytes 32)}
    (hreading : ∀ s ∈ w.settlements, ∀ r, reading s = some r →
      s.escrow.condition ≠ noCondition ∧ r.2 = sha256 (reconstructJournal s.escrow)) :
    (w.settlements.filterMap reading).Nodup ∨ Collides sha256 w.journals := by
  by_cases hcollides : Collides sha256 w.journals
  · exact Or.inr hcollides
  · left
    -- Different settlements have different numbers, hence are of different creations.
    have honce : w.settlements.Pairwise fun s s' ↦ s.serial ≠ s'.serial :=
      List.pairwise_map.mp hw.once
    rw [List.Nodup, List.pairwise_filterMap]
    refine List.Pairwise.imp_of_mem (fun hs hs' hne r hr r' hr' heq ↦ ?_) honce
    obtain ⟨hcond, hdigest⟩ := hreading _ hs r hr
    obtain ⟨hcond', hdigest'⟩ := hreading _ hs' r' hr'
    have hcreated := hw.settlement _ hs
    have hcreated' := hw.settlement _ hs'
    have hjournal := journal_ne_of_index_ne h hcreated hcreated' hne hcond hcond'
    have hmem {s : Settlement} (hcreated : w.created[s.serial]? = some s.escrow)
        (hcond : s.escrow.condition ≠ noCondition) : reconstructJournal s.escrow ∈ w.journals :=
      (mem_journals hcond).mpr (List.mem_map_of_mem (List.mem_of_getElem? hcreated))
    have hsame : sha256 (reconstructJournal _) = sha256 (reconstructJournal _) :=
      hdigest.symm.trans ((congrArg Prod.snd heq).trans hdigest')
    exact hcollides ⟨_, hmem hcreated hcond, _, hmem hcreated' hcond', hjournal, hsame⟩

/-- **When a receipt settles once.** Along every run the journals of the conditioned escrows are
different if and only if no step creates a conditioned escrow on the terms of an earlier one. Then
no two releases are authorized by the same seal and digest, nor, as long as the seals leave the
fields the program vouches for in place, by the same seal and digest as decoded by the router; or
two of the journals collide. -/
theorem receipts_nodup_iff (R : Runtime) (lamports : Pubkey → ℕ) (slot : ℕ)
    (actions : List Action) :
    let w := (World.init lamports slot).run R actions
    let fresh := Along (World.step R) (fun w action ↦ ¬Repeats R w action) (.init lamports slot)
      actions
    (w.journals.Nodup ↔ fresh) ∧
    (fresh → (w.receipts R.sha256).Nodup ∨ Collides R.sha256 w.journals) ∧
    (fresh → (∀ s ∈ w.settlements, s.WellSealed R) →
      (w.decodedReceipts R).Nodup ∨ Collides R.sha256 w.journals) := by
  intro w fresh
  have htracked : Tracked w := World.tracked R lamports slot actions
  have hiff : w.journals.Nodup ↔ fresh := by
    have hrun := run_iff_along (I := fun w : World ↦ w.journals.Nodup) (nodup_journals_step R)
      (.init lamports slot) actions
    rwa [and_iff_right (by exact List.nodup_nil)] at hrun
  refine ⟨hiff, fun hfresh ↦ ?_, fun hfresh hsealed ↦ ?_⟩
  · exact nodup_digests htracked (hiff.mpr hfresh) fun s _ r ↦ receipt_eq_some
  · exact nodup_digests htracked (hiff.mpr hfresh) fun s hs r ↦
      decodedReceipt_eq_some (hsealed s hs)

/-- An address that is the hash of its seeds, but for its first byte. -/
def programAddress (seeds : List Bytes) : Pubkey :=
  ⟨0xff :: (Sha256.digest seeds.flatten).1.tail, by
    rw [List.length_cons, List.length_tail, (Sha256.digest _).2]⟩

/-- A chain on which the addresses derived for the program, and only those, start with `0xff`, and
the router is the stand-in of the repository. -/
def Runtime.sample : Runtime where
  sha256 := Sha256.digest
  imageId := Solana.imageId
  findProgramAddress seeds := (programAddress (seeds ++ [[255]]), 255)
  createProgramAddress seeds := some (programAddress seeds)
  createProgramAddress_find _ := rfl
  canSign a := a.1.head? ≠ some 0xff
  not_canSign_find _ := rfl
  rentReserve := 1858320
  walletReserve := 890880
  walletReserve_le := by decide
  router _ _ := mockVerify

def sampleArgs : CreateEscrowArgs where
  id := sampleEscrow.id
  amount := sampleEscrow.amount
  finishAfter := sampleEscrow.finishAfter
  cancelAfter := sampleEscrow.cancelAfter
  condition := sampleEscrow.condition

/-- The sender funds the same escrow twice, and the recipient releases it twice with one seal. -/
def replay : List Action :=
  let escrow := (Runtime.sample.findProgramAddress
    (escrowSeeds sampleEscrow.sender sampleEscrow.recipient sampleEscrow.id)).1
  let create := .create sampleEscrow.sender sampleEscrow.recipient escrow sampleArgs
  let finish := .finish sampleEscrow.recipient sampleEscrow.sender escrow verifierRouterId []
    (toLE 4 1 ++ [1]) 0
  [create, finish, create, finish]

/-- The second release is authorized by the receipt of the first. -/
theorem receipts_replay :
    let w := (World.init (fun _ ↦ 10000000) 0).run .sample replay
    ¬w.journals.Nodup ∧ ¬(w.receipts Sha256.digest).Nodup ∧
      ¬(w.decodedReceipts .sample).Nodup := by
  decide +kernel

end Zescrow.Solana
