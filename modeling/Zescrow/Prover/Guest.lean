import Zescrow.Core.JournalCodec

/-!
# The zkVM guest

The guest decodes its private input, executes the escrow, and commits the journal of the public
commitment. It aborts when the input does not decode, when an identity does not decode, and when a
field does not fit the journal; an escrow that fails its checks is not an abort but the outcome
`failure`. The frame is decoded by the bincode crate, which is a parameter.
-/

open Foundation

namespace Zescrow

/-- Decodes a frame into a proof input. -/
abbrev DecodeInput := Bytes → Except String ProofInput

namespace Guest

variable (K : Crates)

/-- The outcome the guest commits for the result of an execution. -/
def outcome (result : Except EscrowError ExecutionState) : ExecutionResult :=
  match result with
  | .ok state => .success state
  | .error _ => .failure

/-- Runs the guest on a frame: the journal it commits, or the message it panics with. -/
def main (decode : DecodeInput) (frame : Bytes) : Except String Bytes := do
  let input ← (decode frame).mapError fun _ ↦ "failed to decode proof input"
  let (result, escrow) := input.escrow.execute K
  let input := { input with escrow := escrow }
  let commitment ← (PublicCommitment.new K input (outcome result)).mapError fun _ ↦
    "failed to build public commitment"
  commitment.toJournalBytes.mapError fun _ ↦ "failed to encode journal"

end Guest

/-! ## What the guest commits -/

/-- The commitment carries the data of the input, with its identities decoded. -/
structure ProofInput.Carries (K : Crates) (x : ProofInput) (c : PublicCommitment) : Prop where
  chain : c.chain = x.chain
  agentId : x.agentId.toBytes K = .ok c.agentId
  escrowId : c.escrowId = x.escrowId
  sender : x.escrow.sender.toBytes K = .ok c.sender
  recipient : x.escrow.recipient.toBytes K = .ok c.recipient
  assetKind : c.assetKind = x.escrow.asset.kind
  assetToken : x.escrow.asset.tokenBytes K = .ok c.assetToken
  amount : c.amount = x.escrow.asset.amount
  condition : c.condition = conditionCommitment K x.escrow.condition

theorem PublicCommitment.new_eq_ok {K : Crates} {input : ProofInput} {outcome : ExecutionResult}
    {c : PublicCommitment} :
    PublicCommitment.new K input outcome = .ok c ↔ input.Carries K c ∧ c.outcome = outcome := by
  rw [PublicCommitment.new]
  simp only [bind_eq_ok]
  constructor
  · rintro ⟨token, htoken, agent, hagent, sender, hsender, recipient, hrecipient, hc⟩
    obtain rfl := Except.ok.inj hc
    exact ⟨⟨rfl, hagent, rfl, hsender, hrecipient, rfl, htoken, rfl, rfl⟩, rfl⟩
  · rintro ⟨h, houtcome⟩
    refine ⟨_, h.assetToken, _, h.agentId, _, h.sender, _, h.recipient, ?_⟩
    rw [← h.chain, ← h.escrowId, ← h.assetKind, ← h.amount, ← h.condition, ← houtcome]

/-- The guest commits `journal` exactly when it encodes the commitment to the decoded input and the
outcome of executing it. The mutation of the escrow by its execution is not visible in it. -/
theorem Guest.main_eq_ok {K : Crates} {decode : DecodeInput} {frame journal : Bytes} :
    main K decode frame = .ok journal ↔ ∃ input c, decode frame = .ok input ∧
      PublicCommitment.new K input (outcome (input.escrow.execute K).1) = .ok c ∧
      c.toJournalBytes = .ok journal := by
  -- Only the state of the escrow has changed, and the commitment does not show it.
  have hstate (input : ProofInput) (o : ExecutionResult) : PublicCommitment.new K
      { input with escrow := (input.escrow.execute K).2 } o = PublicCommitment.new K input o := by
    rw [Escrow.execute_snd]
    rfl
  rw [main, bind_eq_ok]
  simp only [bind_eq_ok, mapError_eq_ok, hstate]
  constructor
  · rintro ⟨input, hinput, c, hc, hjournal⟩
    exact ⟨input, c, hinput, hc, hjournal⟩
  · rintro ⟨input, c, hinput, hc, hjournal⟩
    exact ⟨input, hinput, c, hc, hjournal⟩

theorem Guest.outcome_eq_success {K : Crates} {e : Escrow} {s : ExecutionState} :
    outcome (e.execute K).1 = .success s ↔ s = .conditionsMet ∧ e.state = .funded ∧
      e.validateParties K = .ok () ∧ e.asset.validate K = .ok () ∧
      ∀ c, e.condition = some c → c.Satisfied K := by
  constructor
  · intro h
    cases hexec : e.execute K with
    | mk result e' =>
      rw [hexec] at h
      cases result with
      | ok s' =>
        obtain ⟨rfl, -, hchecks⟩ := Escrow.execute_eq_ok hexec
        obtain rfl := ExecutionResult.success.inj h
        exact ⟨rfl, hchecks⟩
      | error err => exact nomatch h
  · rintro ⟨rfl, hstate, hparties, hasset, hcond⟩
    rw [Escrow.execute_of_checks hstate hparties hasset hcond]
    rfl

end Zescrow
