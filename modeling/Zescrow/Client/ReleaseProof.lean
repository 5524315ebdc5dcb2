import Zescrow.Client.Creation
import Zescrow.Client.Finish
import Zescrow.Prover.Prove

/-!
# Release proofs

To finish a conditioned escrow the client builds the prover's input from the metadata, proves it,
and submits the encoded seal of the receipt with its journal. Between the creation and the proof
stand two readings of the conditions file; where both find the same condition, the proof is a
release of the escrow that was created, and there is one if the condition is satisfied and the chain
has recorded what the parameters say.
-/

open Foundation

namespace Zescrow

/-- Why there is no release proof. -/
inductive ReleaseError where
  | escrow (e : EscrowError)
  | prover (e : ProverError)
  | encodeSeal (e : String)
  deriving DecidableEq

/-- Generates the verifying release proof for a conditioned escrow. -/
def releaseProof (C : Codecs) (P : Process) (fromStr : Str → Except String Condition) (Z : ZkVm)
    (metadata : EscrowMetadata) : Except ReleaseError (Option ReleaseProof) := do
  let input ← (releaseProofInput C P fromStr metadata).mapError .escrow
  match input with
  | none => .ok none
  | some input =>
    let proof ← (prove Z input).mapError .prover
    let receiptSeal ← (proof.encodedSeal Z).mapError .encodeSeal
    .ok (some ⟨receiptSeal, proof.journalBytes⟩)

/-- The zkVM runs the guest, and the verifier of a chain takes the seal of what it has proved. -/
structure ZkVm.Serves (Z : ZkVm) (K : Crates) (verify : Bytes → Bytes → Prop) : Prop where
  executes : Z.Executes K
  completes : Z.Completes K
  seals : ∀ receipt, Z.verify receipt Z.guestId = .ok () →
    ∃ receiptSeal, Z.encodeSeal receipt = .ok receiptSeal ∧ verify receiptSeal receipt.journal

section

variable {C : Codecs} {P : Process} {fromStr : Str → Except String Condition} {Z : ZkVm}
  {metadata : EscrowMetadata} {input : ProofInput}

theorem releaseProof_eq_ok (hinput : releaseProofInput C P fromStr metadata = .ok (some input))
    {r : ReleaseProof} : releaseProof C P fromStr Z metadata = .ok (some r) ↔
      ∃ proof, prove Z input = .ok proof ∧ Z.encodeSeal proof.receipt = .ok r.receiptSeal ∧
        r.journal = proof.receipt.journal := by
  simp only [releaseProof, hinput, Except.mapError, ok_bind, bind_eq_ok]
  constructor
  · rintro ⟨proof, hproof, receiptSeal, hseal, hr⟩
    obtain rfl := Option.some.inj (Except.ok.inj hr)
    exact ⟨proof, mapError_eq_ok.mp hproof, mapError_eq_ok.mp hseal, rfl⟩
  · rintro ⟨proof, hproof, hseal, hjournal⟩
    refine ⟨proof, mapError_eq_ok.mpr hproof, r.receiptSeal, mapError_eq_ok.mpr hseal, ?_⟩
    rw [EscrowProof.journalBytes, ← hjournal]

theorem releaseProof_of_unconditioned (h : metadata.params.hasConditions = false) :
    releaseProof C P fromStr Z metadata = .ok none := by
  have hinput : releaseProofInput C P fromStr metadata = .ok none :=
    if_pos (by rw [h]; exact Bool.false_ne_true)
  simp only [releaseProof, hinput, Except.mapError, ok_bind]

/-- What the client submits is verified, and of an escrow that passes every check. -/
theorem releaseProof_sound (hZ : Z.Executes C.toCrates) (hx : input.Portable)
    (hinput : releaseProofInput C P fromStr metadata = .ok (some input)) {r : ReleaseProof}
    (h : releaseProof C P fromStr Z metadata = .ok (some r)) :
    input.Releasable C.toCrates ∧
      Guest.main C.toCrates ProofInput.ofFrame input.encode = .ok r.journal ∧
      ∃ receipt, Z.verify receipt Z.guestId = .ok () ∧ Z.encodeSeal receipt = .ok r.receiptSeal ∧
        receipt.journal = r.journal := by
  obtain ⟨proof, hproof, hseal, hjournal⟩ := (releaseProof_eq_ok hinput).mp h
  obtain ⟨hprove, hverify, -, hmet, -⟩ := (prove_eq_ok hZ hx).mp hproof
  refine ⟨hmet, ?_, proof.receipt, hverify, hseal, hjournal.symm⟩
  rw [hjournal]
  exact hZ _ _ hprove

/-- The release that a release proof is. -/
def Release.ofProof (hZ : Z.Executes C.toCrates) (hx : input.Portable)
    (hinput : releaseProofInput C P fromStr metadata = .ok (some input)) {r : ReleaseProof}
    (h : releaseProof C P fromStr Z metadata = .ok (some r)) {condition : Option (FixedBytes 32)}
    (hcond : condition = input.escrow.condition.map fun c ↦ c.commitment C.toCrates) :
    Release C metadata condition where
  process := P
  fromStr := fromStr
  input := input
  input_eq := hinput
  condition_eq := hcond
  decode := ProofInput.ofFrame
  frame := input.encode
  decode_eq := hx.ofFrame_encode
  journal := r.journal
  journal_eq := (releaseProof_sound hZ hx hinput h).2.1
  met := Guest.outcome_eq_success_iff.mpr ⟨rfl, (releaseProof_sound hZ hx hinput h).1⟩

/-- A satisfied escrow with a commitment to its input has a release proof. -/
theorem exists_releaseProof {verify : Bytes → Bytes → Prop} (hZ : Z.Serves C.toCrates verify)
    (hx : input.Portable) (hinput : releaseProofInput C P fromStr metadata = .ok (some input))
    (hmet : input.Releasable C.toCrates) {c : PublicCommitment}
    (hcarries : input.Carries C.toCrates c) (hc : c.outcome = .success .conditionsMet)
    (hfits : c.Encodable) :
    ∃ r, releaseProof C P fromStr Z metadata = .ok (some r) := by
  have hmain : Guest.main C.toCrates ProofInput.ofFrame input.encode = .ok c.layout :=
    (Guest.main_encode hx).mpr ⟨c, hcarries,
      hc.trans (Guest.outcome_eq_success_iff.mpr ⟨rfl, hmet⟩).symm,
      PublicCommitment.toJournalBytes_iff.mpr ⟨hfits, rfl⟩⟩
  obtain ⟨receipt, hprove, hverify⟩ := hZ.completes _ _ hmain
  obtain ⟨receiptSeal, hseal, -⟩ := hZ.seals receipt hverify
  obtain ⟨c', -, -, -, hproof, -⟩ := prove_of_receipt hZ.executes hx hprove hverify
  exact ⟨⟨receiptSeal, receipt.journal⟩,
    (releaseProof_eq_ok hinput).mpr ⟨_, hproof hmet, hseal, rfl⟩⟩

theorem exists_condition_of_input
    (hinput : releaseProofInput C P fromStr metadata = .ok (some input)) :
    ∃ k, input.escrow.condition = some k := by
  obtain ⟨hconditions, _, _, -, hescrow, rfl⟩ := releaseProofInput_eq_ok.mp hinput
  obtain ⟨_, cond, -, -, rfl⟩ := (Escrow.fromMetadata_eq_ok hconditions).mp hescrow
  exact ⟨cond, rfl⟩

theorem EscrowParams.RecordedAs.carries {c : PublicCommitment}
    (h : metadata.params.RecordedAs C.toCrates c)
    (hinput : releaseProofInput C P fromStr metadata = .ok (some input))
    (hchain : c.chain = metadata.params.chainConfig.chain)
    (hagent : ∀ id, ID.forChain C metadata.params.chainConfig.chain
      metadata.params.chainConfig.agentId = .ok id → id.toBytes C.toCrates = .ok c.agentId)
    (hid : c.escrowId = metadata.escrowId.getD 0)
    (hcond : some c.condition = input.escrow.condition.map fun k ↦ k.commitment C.toCrates) :
    input.Carries C.toCrates c := by
  obtain ⟨hconditions, agentId, escrow, hforChain, hescrow, rfl⟩ :=
    releaseProofInput_eq_ok.mp hinput
  obtain ⟨_, cond, -, -, rfl⟩ := (Escrow.fromMetadata_eq_ok hconditions).mp hescrow
  exact ⟨hchain, hagent agentId hforChain, hid, h.sender, h.recipient, h.assetKind, h.assetToken,
    h.amount, Option.some.inj hcond⟩

theorem EscrowParams.RecordedAs.releasable {c : PublicCommitment}
    (h : metadata.params.RecordedAs C.toCrates c)
    (hinput : releaseProofInput C P fromStr metadata = .ok (some input))
    (hstate : metadata.state = .funded) (hsender : c.sender ≠ []) (hrecipient : c.recipient ≠ [])
    (hkind : c.assetKind = .native) (hamount : metadata.params.asset.amount ≠ 0)
    (hcond : ∀ k, input.escrow.condition = some k → k.Satisfied C.toCrates) :
    input.Releasable C.toCrates := by
  obtain ⟨hconditions, agentId, escrow, -, hescrow, rfl⟩ := releaseProofInput_eq_ok.mp hinput
  obtain ⟨_, cond, -, -, rfl⟩ := (Escrow.fromMetadata_eq_ok hconditions).mp hescrow
  refine ⟨hstate, ⟨_, h.sender, hsender⟩, ⟨_, h.recipient, hrecipient⟩, hamount, fun htoken ↦ ?_,
    hcond⟩
  have hnative := h.assetKind.symm.trans hkind
  exact absurd (htoken.symm.trans hnative) (by decide)

end

end Zescrow
