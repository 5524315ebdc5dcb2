import Zescrow.Core.ConditionBinding
import Zescrow.Ethereum.JournalBinding
import Zescrow.Ethereum.Lifecycle
import Zescrow.Prover.Guest

/-!
# A release on the EVM attests the escrow's terms

Three components meet here: the guest commits the journal of what it checked, the contract compares
a journal with its record, and the record is the one of creation. A verifier that accepts a digest
only if some guest run committed a journal with that digest therefore lets a conditioned escrow be
released only after the guest has checked its condition, for this contract, this id and these terms,
unless the submitted journal collides with the one the guest committed.
-/

open Foundation

namespace Zescrow.Ethereum

/-- What a guest run has checked when it vouches for the release of escrow `i` with record `r`. -/
structure Attests (K : Crates) (self : Address) (i : Word) (r : EscrowDB) (input : ProofInput) :
    Prop where
  agentId : input.agentId.toBytes K = .ok (addressBytes self)
  escrowId : input.escrowId.toNat = i.toNat
  sender : input.escrow.sender.toBytes K = .ok (addressBytes r.sender)
  recipient : input.escrow.recipient.toBytes K = .ok (addressBytes r.recipient)
  native : input.escrow.asset.kind = .native
  token : input.escrow.asset.tokenBytes K = .ok []
  amount : input.escrow.asset.amount = r.amount.toNat
  funded : input.escrow.state = .funded
  condition : ∃ c, input.escrow.condition = some c ∧ c.Satisfied K ∧
    (c.commitment K).1 = toBE 32 r.conditionId.toNat

theorem exists_condition {K : Crates} {condition : Option Condition} {conditionId : Word}
    (h : (conditionCommitment K condition).1 = toBE 32 conditionId.toNat) (hne : conditionId ≠ 0) :
    ∃ c, condition = some c ∧ (c.commitment K).1 = toBE 32 conditionId.toNat := by
  cases condition with
  | some c => exact ⟨c, rfl, h⟩
  | none =>
    -- Without a condition the commitment is zero, and so would be the recorded one.
    have hzero : ofBE (FixedBytes.zero 32).1 = 0 := by decide
    have hlt : conditionId.toNat < 256 ^ 32 := conditionId.isLt.trans_eq (by norm_num)
    have hnat : ofBE (FixedBytes.zero 32).1 = ofBE (toBE 32 conditionId.toNat) := congrArg ofBE h
    rw [ofBE_toBE hlt, hzero] at hnat
    exact absurd (BitVec.eq_of_toNat_eq hnat.symm) hne

/-- A journal the contract accepts was committed by a guest that checked the escrow's terms. -/
theorem attests_of_journal {K : Crates} {decode : DecodeInput} {frame journal : Bytes}
    {self : Address} {i : Word} {r : EscrowDB} (hmain : Guest.main K decode frame = .ok journal)
    (hbind : checkJournalBinding self r i journal = .ok ()) (hne : r.conditionId ≠ 0) :
    ∃ input, decode frame = .ok input ∧ Attests K self i r input := by
  obtain ⟨input, c, hinput, hc, hjournal⟩ := Guest.main_eq_ok.mp hmain
  obtain ⟨hid, hjournal'⟩ := checkJournalBinding_eq_ok.mp hbind
  obtain rfl := PublicCommitment.toJournalBytes_inj hjournal hjournal'
  obtain ⟨h, houtcome⟩ := PublicCommitment.new_eq_ok.mp hc
  obtain ⟨-, hfunded, -, -, hsatisfied⟩ := Guest.outcome_eq_success.mp houtcome.symm
  obtain ⟨cond, hsome, hcommit⟩ := exists_condition (congrArg Subtype.val h.condition).symm hne
  refine ⟨input, hinput, h.agentId, ?_, h.sender, h.recipient, h.assetKind.symm, h.assetToken,
    h.amount.symm, hfunded, cond, hsome, hsatisfied cond hsome, hcommit⟩
  rw [← h.escrowId]
  exact UInt64.toNat_ofNat_of_lt' hid

/-- **End-to-end release soundness.** Whenever a run has released an escrow by `finishEscrow`, the
escrow was created in it; and if it is conditioned, some guest run committed a journal with the
digest the verifier accepted and, short of a collision of that journal with the submitted one, that
run checked a condition with the recorded commitment for this contract, this escrow and the terms of
its creation. -/
theorem Machine.release_sound (K : Crates) (decode : DecodeInput) (D : Deployment)
    (hverify : ∀ moment receiptSeal d, D.verify moment receiptSeal D.imageId d = true →
      ∃ frame journal, Guest.main K decode frame = .ok journal ∧ D.sha256 journal = d)
    (forced block : ℕ) (actions : List Action) (i : Word) (receiptSeal journal : Bytes) (p : Entry)
    (hp : p ∈ ((init forced block).run D actions).world.log)
    (hcall : p.call = .finishEscrow i receiptSeal journal) :
    ∃ r, (i, r) ∈ creations ((init forced block).run D actions).world.log ∧
      (r.conditionId ≠ 0 → ∃ frame journal' input, Guest.main K decode frame = .ok journal' ∧
        decode frame = .ok input ∧ D.sha256 journal' = D.sha256 journal ∧
        (journal' = journal → Attests K D.self i r input)) := by
  have hrec := recorded D forced block actions
  obtain ⟨r, hr, -, hallowed⟩ := hrec.release_allowed hp hcall
  refine ⟨r, hr, fun hne ↦ ?_⟩
  have hproof := hallowed.proof hne
  -- The verifier accepted, so some guest committed a journal with the digest of the submitted one.
  obtain ⟨frame, journal', hmain, hdigest⟩ := hverify _ _ _ hproof.2
  obtain ⟨input, c, hinput, -⟩ := Guest.main_eq_ok.mp hmain
  refine ⟨frame, journal', input, hmain, hinput, hdigest, ?_⟩
  rintro rfl
  obtain ⟨input', hinput', hattests⟩ := attests_of_journal hmain hproof.1 hne
  rw [hinput] at hinput'
  obtain rfl := Except.ok.inj hinput'
  exact hattests

/-! ## A release -/

/-- The condition of the sample: a preimage is to be exhibited. -/
def sampleCondition : Condition :=
  .hashlock ⟨Crates.sample.sha256 (ascii "secret"), ascii "secret"⟩

/-- The record of the sample escrow: five wei from account 1 for account 2, refundable from block 10
on. -/
def sampleEscrow : EscrowDB :=
  newEscrow ⟨1, 5, 0, 0⟩ 2 0 10 (BitVec.ofNat 256 (ofBE (sampleCondition.commitment .sample).1))

/-- What the sample guest run is given. -/
def sampleInput : ProofInput where
  escrow :=
    { asset := ⟨.native, none, 5, none⟩
      recipient := ⟨.bytes (addressBytes 2)⟩
      sender := ⟨.bytes (addressBytes 1)⟩
      condition := some sampleCondition
      state := .funded }
  chain := .ethereum
  agentId := .bytes (addressBytes 3)
  escrowId := 1

def sampleJournal : Bytes := (releaseCommitment 3 sampleEscrow 1).layout

/-- A contract at address 3 whose verifier knows one receipt. -/
def sampleDeployment : Deployment where
  self := 3
  verifier := 4
  imageId := 7
  verifier_ne_zero := by decide
  imageId_ne_zero := by decide
  verify _ receiptSeal _ digest := receiptSeal = [1] ∧ digest = Sha256.digest sampleJournal
  sha256 := Sha256.digest

/-- Creation by account 1, release by account 2. -/
def sampleActions : List Action :=
  [.call 1 5 0 (.createEscrow 2 0 10 sampleEscrow.conditionId),
    .call 2 0 0 (.finishEscrow 1 [1] sampleJournal)]

theorem main_sample (frame : Bytes) :
    Guest.main .sample (fun _ ↦ .ok sampleInput) frame = .ok sampleJournal := by
  have hcommit : (releaseCommitment 3 sampleEscrow 1).condition
      = sampleCondition.commitment .sample := by
    have hlt := ofBE_lt (sampleCondition.commitment .sample).1
    rw [(sampleCondition.commitment .sample).2] at hlt
    have hword : sampleEscrow.conditionId.toNat = ofBE (sampleCondition.commitment .sample).1 :=
      (BitVec.toNat_ofNat _ _).trans (Nat.mod_eq_of_lt (hlt.trans_eq (by norm_num)))
    refine Subtype.ext ?_
    change toBE 32 sampleEscrow.conditionId.toNat = _
    rw [hword, toBE_ofBE_of_length (sampleCondition.commitment .sample).2]
  have houtcome :
      Guest.outcome (sampleInput.escrow.execute .sample).1 = .success .conditionsMet := by
    refine Guest.outcome_eq_success.mpr ⟨rfl, rfl, rfl, rfl, fun c hc ↦ ?_⟩
    obtain rfl := Option.some.inj hc
    exact Condition.satisfied_hashlock.mpr rfl
  refine Guest.main_eq_ok.mpr ⟨sampleInput, releaseCommitment 3 sampleEscrow 1, rfl,
    PublicCommitment.new_eq_ok.mpr ⟨⟨rfl, rfl, rfl, rfl, rfl, rfl, rfl, rfl, hcommit⟩,
      houtcome.symm⟩, ?_⟩
  exact PublicCommitment.toJournalBytes_iff.mpr ⟨encodable_releaseCommitment _ _ _, rfl⟩

theorem Machine.release_sound_sample :
    ∃ r, (1, r) ∈ creations ((init 0 0).run sampleDeployment sampleActions).world.log ∧
      (r.conditionId ≠ 0 → ∃ frame journal' input,
        Guest.main .sample (fun _ ↦ .ok sampleInput) frame = .ok journal' ∧
        (.ok sampleInput : Except String ProofInput) = .ok input ∧
        Sha256.digest journal' = Sha256.digest sampleJournal ∧
        (journal' = sampleJournal → Attests .sample 3 1 r input)) := by
  refine release_sound .sample (fun _ ↦ .ok sampleInput) sampleDeployment ?_ 0 0 sampleActions 1 [1]
    sampleJournal ⟨⟨2, 0, 0, 0⟩, .finishEscrow 1 [1] sampleJournal, .escrowFinished 1 2 5,
      some ⟨2, 5⟩⟩ (by decide +kernel) rfl
  intro moment receiptSeal d hd
  obtain ⟨-, rfl⟩ := of_decide_eq_true hd
  exact ⟨[], sampleJournal, main_sample [], rfl⟩

end Zescrow.Ethereum
