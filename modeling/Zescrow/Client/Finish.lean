import Zescrow.Client.Agents
import Zescrow.Solana.ProofGate

/-!
# How the client finishes an escrow

The Solana agent puts the length of the seal in front of it and the program puts the image id and
the journal digest behind; together this is what the verifier router decodes. Without a proof the
agent sends no seal at all, and the router is left with the two fields of the program, which are
too short to be a vector of any length followed by two fields.
-/

open Foundation

namespace Zescrow

/-- A verifying release proof for a conditioned escrow. -/
structure ReleaseProof where
  receiptSeal : Bytes
  journal : Bytes

namespace SolanaAgent

/-- Frames a release proof's seal for the verifier router. -/
def routerSeal (proof : ReleaseProof) : Except ClientError Bytes :=
  if proof.receiptSeal.length < 2 ^ 32 then
    .ok (toLE 4 proof.receiptSeal.length ++ proof.receiptSeal)
  else .error (.solana "finish_escrow" "seal length exceeds u32")

/-- The seal that is submitted, empty without a proof. -/
def submittedSeal (proof : Option ReleaseProof) : Except ClientError Bytes :=
  match proof with
  | some proof => routerSeal proof
  | none => .ok []

/-- Reads the escrow id recorded at creation. -/
def escrowId (metadata : EscrowMetadata) (operation : String) : Except ClientError UInt64 :=
  metadata.escrowId.elim (.error (.solana operation "escrow id missing from metadata")) .ok

/-- Releases an escrow on-chain, with no accounts for the router. `recipientKeypair` is the public
key of the recipient's keypair, if one is configured. -/
def finishEscrow (C : Codecs) (R : Solana.Runtime) (agent : SolanaAgent)
    (recipientKeypair : Option Solana.Pubkey) (slot moment : ℕ) (metadata : EscrowMetadata)
    (proof : Option ReleaseProof) (accounts : Solana.Accounts) :
    Except ClientError Solana.Accounts := do
  let sender ← parsePubkey C (metadata.params.sender.display C)
  let recipient ← parsePubkey C (metadata.params.recipient.display C)
  let id ← escrowId metadata "finish_escrow"
  let keypair ← recipientKeypair.elim
    (.error (.solana "finish_escrow" "recipient keypair not configured")) .ok
  validateKeypair keypair recipient "recipient"
  let escrowPda := (R.findProgramAddress (Solana.escrowSeeds sender recipient id)).1
  let receiptSeal ← submittedSeal proof
  ensure (agent.escrowProgramId = Solana.programId) (.solana "finish_escrow" "no such program")
  let (accounts, _) ← (Solana.finishEscrow R slot moment recipient sender escrowPda
    Solana.verifierRouterId [] receiptSeal accounts).mapError
      fun _ ↦ .solana "finish_escrow" "transaction failed"
  .ok accounts

end SolanaAgent

namespace Solana

/-- What a framed seal is decoded to, with nothing left to read. -/
theorem readVerifyArgs_framed {receiptSeal : Bytes} (hlen : receiptSeal.length < 2 ^ 32)
    (imageId digest : FixedBytes 32) :
    let data := toLE 4 receiptSeal.length ++ receiptSeal ++ imageId.1 ++ digest.1
    readVerifyArgs ⟨data, 0⟩ = .ok (⟨receiptSeal, imageId, digest⟩, ⟨data, data.length⟩) := by
  intro data
  have hencode : data = (⟨receiptSeal, imageId, digest⟩ : VerifyArgs).encode :=
    List.append_assoc _ _ _
  have hread := (exact_readVerifyArgs 0 [] data rfl ⟨receiptSeal, imageId, digest⟩ _).mpr
    ⟨data, [], (List.append_nil data).symm, ⟨hlen, hencode⟩, rfl⟩
  rwa [List.nil_append, Nat.zero_add] at hread

/-- Two fields alone are not decoded: whatever length they begin with, they are too short. -/
theorem readVerifyArgs_unframed (imageId digest : FixedBytes 32) (args : VerifyArgs) :
    readVerifyArgs.parse (imageId.1 ++ digest.1) ≠ .ok args := by
  intro h
  obtain ⟨_, rest, hdata, -, rfl⟩ := (exact_readVerifyArgs 0).parse_eq_ok.mp h
  have hlen := congrArg List.length hdata
  simp only [VerifyArgs.encode, List.length_append, length_toLE, imageId.2, digest.2,
    args.imageId.2, args.journalDigest.2] at hlen
  omega

theorem routerVerify_unsealed (sha256 : Bytes → FixedBytes 32) (check : VerifyArgs → Bool)
    (imageId : FixedBytes 32) (escrow : EscrowAccount) :
    routerVerify sha256 check (releaseProofData sha256 imageId escrow []) = none := by
  rw [Option.eq_none_iff_forall_ne_some]
  intro args h
  obtain ⟨-, hlen, rest, hdata⟩ := routerVerify_eq_some.mp h
  rw [releaseProofData, List.append_nil, List.append_assoc, List.append_cancel_left_eq] at hdata
  refine readVerifyArgs_unframed imageId (sha256 (reconstructJournal escrow)) args ?_
  exact (exact_readVerifyArgs 0).parse_eq_ok.mpr ⟨_, rest, hdata, hlen, rfl⟩

theorem finishEscrow_unsealed {R : Runtime} {slot moment : ℕ}
    {recipient sender a verifierRouter : Pubkey} {remaining : List AccountMeta}
    {accounts : Accounts} {escrow : EscrowAccount} (hdata : (accounts a).data = some escrow)
    (hcond : escrow.condition ≠ noCondition) (r : Accounts × EscrowEvent) :
    finishEscrow R slot moment recipient sender a verifierRouter remaining [] accounts ≠ .ok r := by
  intro h
  obtain ⟨escrow', hdata', hallowed, -⟩ := finishEscrow_eq_ok.mp h
  obtain rfl := Option.some.inj (hdata.symm.trans hdata')
  exact hallowed.proof hcond (routerVerify_unsealed _ _ _ _)

end Solana

namespace SolanaAgent

theorem finishEscrow_unproved {C : Codecs} {R : Solana.Runtime} {agent : SolanaAgent}
    {recipientKeypair : Option Solana.Pubkey} {slot moment : ℕ} {metadata : EscrowMetadata}
    {accounts : Solana.Accounts} {sender recipient : Solana.Pubkey} {id : UInt64}
    {escrow : Solana.EscrowAccount}
    (hsender : parsePubkey C (metadata.params.sender.display C) = .ok sender)
    (hrecipient : parsePubkey C (metadata.params.recipient.display C) = .ok recipient)
    (hid : metadata.escrowId = some id)
    (hdata : (accounts (R.findProgramAddress (Solana.escrowSeeds sender recipient id)).1).data
      = some escrow) (hcond : escrow.condition ≠ Solana.noCondition) (r : Solana.Accounts) :
    agent.finishEscrow C R recipientKeypair slot moment metadata none accounts ≠ .ok r := by
  intro h
  rw [finishEscrow, hsender, hrecipient] at h
  simp only [ok_bind, bind_eq_ok, mapError_eq_ok, escrowId, elim_eq_ok, submittedSeal] at h
  obtain ⟨id', hid', _, -, _, -, _, -, r', hfinish, -⟩ := h
  obtain rfl := Option.some.inj (hid.symm.trans hid')
  exact Solana.finishEscrow_unsealed hdata hcond r' hfinish

/-- **Framing and splicing compose.** Whatever image id a program pins, from a seal of less than
2^32 bytes as the client frames it the router decodes the seal, the image id and the digest of the
reconstructed journal, and has read everything. Without a proof it decodes nothing, so a conditioned
escrow is not finished. -/
theorem routerSeal_decoded (sha256 : Bytes → FixedBytes 32) (imageId : FixedBytes 32)
    (escrow : Solana.EscrowAccount) :
    (∀ proof : ReleaseProof, proof.receiptSeal.length < 2 ^ 32 →
      ∃ framed, submittedSeal (some proof) = .ok framed ∧
        let data := Solana.releaseProofData sha256 imageId escrow framed
        data.take 8 = Solana.verifyDiscriminator sha256 ∧
        Solana.readVerifyArgs ⟨data.drop 8, 0⟩ =
          .ok (⟨proof.receiptSeal, imageId, sha256 (Solana.reconstructJournal escrow)⟩,
            ⟨data.drop 8, (data.drop 8).length⟩)) ∧
    submittedSeal none = .ok [] ∧
    (∀ (digest : FixedBytes 32) args,
      Solana.readVerifyArgs.parse ([] ++ imageId.1 ++ digest.1) ≠ .ok args) ∧
    (∀ R slot moment recipient sender a verifierRouter remaining accounts r,
      (accounts a).data = some escrow → escrow.condition ≠ Solana.noCondition →
        Solana.finishEscrow R slot moment recipient sender a verifierRouter remaining [] accounts
          ≠ .ok r) ∧
    ∀ C R agent keypair slot moment metadata accounts sender recipient id r,
      parsePubkey C (metadata.params.sender.display C) = .ok sender →
      parsePubkey C (metadata.params.recipient.display C) = .ok recipient →
      metadata.escrowId = some id →
      (accounts (R.findProgramAddress (Solana.escrowSeeds sender recipient id)).1).data
        = some escrow → escrow.condition ≠ Solana.noCondition →
      finishEscrow C R agent keypair slot moment metadata none accounts ≠ .ok r := by
  refine ⟨fun proof hlen ↦ ⟨_, if_pos hlen, ?_⟩, rfl, fun digest args ↦ ?_,
    fun _ _ _ _ _ _ _ _ _ r hdata hcond ↦ Solana.finishEscrow_unsealed hdata hcond r,
    fun _ _ _ _ _ _ _ _ _ _ _ r hsender hrecipient hid hdata hcond ↦
      finishEscrow_unproved hsender hrecipient hid hdata hcond r⟩
  · intro data
    have hdisc := Solana.length_verifyDiscriminator sha256
    have hdata : data = Solana.verifyDiscriminator sha256 ++
        (toLE 4 proof.receiptSeal.length ++ proof.receiptSeal ++ imageId.1 ++
          (sha256 (Solana.reconstructJournal escrow)).1) := by
      simp only [data, Solana.releaseProofData, List.append_assoc]
    rw [hdata, List.take_left' hdisc, List.drop_left' hdisc]
    exact ⟨rfl, Solana.readVerifyArgs_framed hlen _ _⟩
  · exact Solana.readVerifyArgs_unframed imageId digest args

end SolanaAgent

end Zescrow
