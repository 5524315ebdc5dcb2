import Zescrow.Client.SolanaSettle
import Zescrow.Solana.Chain

/-!
# The client's instructions

The agent puts its instructions together by hand: the accounts in the order of the program's account
structs, each with the flags that its handler needs, and the data that Anchor derives from the
program's own interface. Submitted to the program they run the handlers they are named after, on the
keys and arguments they were built from, and fail as the handlers fail.

Conversely there is nothing that the handlers can do in a run that the instructions of an agent
cannot bring about, as long as the runtime lets each step stand, except with accounts for the router
and with seals that are too long to be written down.
-/

open Foundation

namespace Zescrow

namespace SolanaAgent

section

variable (agent : SolanaAgent)

/-- Builds the `create_escrow` instruction. -/
def buildCreateInstruction (sender recipient escrowPda : Solana.Pubkey)
    (args : Solana.CreateEscrowArgs) : Option Solana.Instruction :=
  (Solana.EscrowInstruction.createEscrow args).data.map fun data ↦
    { programId := agent.escrowProgramId
      accounts := [.new sender true, .newReadonly recipient false, .new escrowPda false,
        .newReadonly Solana.systemProgramId false]
      data := data }

/-- Builds the `finish_escrow` instruction, which has no accounts for the router. -/
def buildFinishInstruction (recipient sender escrowPda : Solana.Pubkey) (receiptSeal : Bytes) :
    Option Solana.Instruction :=
  (Solana.EscrowInstruction.finishEscrow receiptSeal).data.map fun data ↦
    { programId := agent.escrowProgramId
      accounts := [.new recipient true, .new sender false, .new escrowPda false,
        .newReadonly Solana.verifierRouterId false]
      data := data }

/-- Builds the `cancel_escrow` instruction. -/
def buildCancelInstruction (sender escrowPda : Solana.Pubkey) : Option Solana.Instruction :=
  Solana.EscrowInstruction.cancelEscrow.data.map fun data ↦
    { programId := agent.escrowProgramId
      accounts := [.new sender true, .new escrowPda false]
      data := data }

end

end SolanaAgent

/-! ## The handlers run -/

section

open Solana

variable {R : Runtime} {slot moment : ℕ} {accounts : Accounts} {agent : SolanaAgent}

/-- With the data of an instruction and nothing behind it, only the signatures and the handler are
left to ask. -/
theorem Solana.process_data {ix : Instruction} (hprogram : ix.programId = programId)
    {i : EscrowInstruction} (hdata : i.data = some ix.data) :
    process R slot moment ix accounts = (do
      ensure (∀ m ∈ ix.accounts, m.isSigner = true → R.canSign m.pubkey = true)
        (.program .missingSignature)
      i.call R slot moment ix.accounts accounts) := by
  have hdispatch : dispatch ix.data = .ok i :=
    dispatch_eq_ok.mpr ⟨_, [], hdata, (List.append_nil _).symm⟩
  have haddressed : ensure (ix.programId = programId) InstructionError.unsupportedProgramId =
      .ok () := ensure_eq_ok.mpr hprogram
  rw [process, hdispatch, haddressed]
  rfl

theorem Solana.signed_bind {α : Type} {key : Pubkey} {signed : Prop} [Decidable signed]
    (hsigned : signed ↔ R.canSign key = true) (f : Except ProgramError α) :
    (do
      ensure signed (InstructionError.program .missingSignature)
      (do
        ensure (R.canSign key = true) .missingSignature
        f : Except ProgramError α).mapError .program) =
    (do
      ensure (R.canSign key = true) .missingSignature
      f : Except ProgramError α).mapError .program := by
  by_cases h : R.canSign key = true
  · rw [(ensure_eq_ok (u := ())).mpr (hsigned.mpr h)]
    rfl
  · rw [ensure_eq_error.mpr ⟨fun hs ↦ h (hsigned.mp hs), rfl⟩, ensure_eq_error.mpr ⟨h, rfl⟩]
    rfl

theorem SolanaAgent.process_create (hprogram : agent.escrowProgramId = programId)
    {sender recipient a : Pubkey} {args : CreateEscrowArgs} {ix : Instruction}
    (h : agent.buildCreateInstruction sender recipient a args = some ix) :
    process R slot moment ix accounts =
      (Solana.createEscrow R sender recipient a args accounts).mapError .program := by
  obtain ⟨data, hdata, rfl⟩ := Option.map_eq_some_iff.mp h
  have hctx : CreateEscrow.tryAccounts [.new sender true, .newReadonly recipient false,
      .new a false, .newReadonly systemProgramId false] = .ok ⟨sender, recipient, a⟩ :=
    CreateEscrow.tryAccounts_eq_ok.mpr ⟨_, _, _, _, _, [], rfl⟩
  have hcall : (EscrowInstruction.createEscrow args).call R slot moment
      [.new sender true, .newReadonly recipient false, .new a false,
        .newReadonly systemProgramId false] accounts =
      (Solana.createEscrow R sender recipient a args accounts).mapError .program := by
    rw [EscrowInstruction.call, hctx]
    rfl
  rw [process_data hprogram hdata, hcall]
  refine signed_bind ?_ _
  simp [AccountMeta.new, AccountMeta.newReadonly]

theorem SolanaAgent.process_finish (hprogram : agent.escrowProgramId = programId)
    {recipient sender a : Pubkey} {receiptSeal : Bytes} {ix : Instruction}
    (h : agent.buildFinishInstruction recipient sender a receiptSeal = some ix) :
    process R slot moment ix accounts = (Solana.finishEscrow R slot moment recipient sender a
      verifierRouterId [] receiptSeal accounts).mapError .program := by
  obtain ⟨data, hdata, rfl⟩ := Option.map_eq_some_iff.mp h
  have hctx : FinishEscrow.tryAccounts [.new recipient true, .new sender false,
      .new a false, .newReadonly verifierRouterId false] =
        .ok ⟨recipient, sender, a, verifierRouterId, []⟩ :=
    FinishEscrow.tryAccounts_eq_ok.mpr ⟨_, _, _, _, rfl⟩
  have hcall : (EscrowInstruction.finishEscrow receiptSeal).call R slot moment
      [.new recipient true, .new sender false, .new a false,
        .newReadonly verifierRouterId false] accounts =
      (Solana.finishEscrow R slot moment recipient sender a verifierRouterId [] receiptSeal
        accounts).mapError .program := by
    rw [EscrowInstruction.call, hctx]
    rfl
  rw [process_data hprogram hdata, hcall]
  refine signed_bind ?_ _
  simp [AccountMeta.new, AccountMeta.newReadonly]

theorem SolanaAgent.process_cancel (hprogram : agent.escrowProgramId = programId)
    {sender a : Pubkey} {ix : Instruction} (h : agent.buildCancelInstruction sender a = some ix) :
    process R slot moment ix accounts =
      (Solana.cancelEscrow R slot sender a accounts).mapError .program := by
  obtain ⟨data, hdata, rfl⟩ := Option.map_eq_some_iff.mp h
  have hctx : CancelEscrow.tryAccounts [.new sender true, .new a false] = .ok ⟨sender, a⟩ :=
    CancelEscrow.tryAccounts_eq_ok.mpr ⟨_, [], rfl⟩
  have hcall : EscrowInstruction.cancelEscrow.call R slot moment
      [.new sender true, .new a false] accounts =
      (Solana.cancelEscrow R slot sender a accounts).mapError .program := by
    rw [EscrowInstruction.call, hctx]
    rfl
  rw [process_data hprogram hdata, hcall]
  refine signed_bind ?_ _
  simp [AccountMeta.new]

theorem SolanaAgent.exists_finishInstruction (agent : SolanaAgent) (recipient sender a : Pubkey)
    {receiptSeal : Bytes} : (∃ ix, agent.buildFinishInstruction recipient sender a receiptSeal
      = some ix) ↔ receiptSeal.length < 2 ^ 32 := by
  rw [buildFinishInstruction, EscrowInstruction.data, Borsh.byteVec]
  split
  · next h => exact iff_of_true ⟨_, rfl⟩ h
  · next h => exact iff_of_false (by simp) h

/-- **The client's instructions run their handlers.** What an agent for the program builds is
carried out as the call of the handler with the keys and the arguments it was built from, in every
state, and fails exactly as that call does. -/
theorem SolanaAgent.instructions_exact (hprogram : agent.escrowProgramId = programId) :
    (∀ sender recipient a args, ∃ ix,
      agent.buildCreateInstruction sender recipient a args = some ix ∧
      ∀ R slot moment accounts, process R slot moment ix accounts =
        (Solana.createEscrow R sender recipient a args accounts).mapError .program) ∧
    (∀ recipient sender a receiptSeal, receiptSeal.length < 2 ^ 32 → ∃ ix,
      agent.buildFinishInstruction recipient sender a receiptSeal = some ix ∧
      ∀ R slot moment accounts, process R slot moment ix accounts =
        (Solana.finishEscrow R slot moment recipient sender a verifierRouterId [] receiptSeal
          accounts).mapError .program) ∧
    ∀ sender a, ∃ ix, agent.buildCancelInstruction sender a = some ix ∧
      ∀ R slot moment accounts, process R slot moment ix accounts =
        (Solana.cancelEscrow R slot sender a accounts).mapError .program := by
  refine ⟨fun sender recipient a args ↦ ?_, fun recipient sender a receiptSeal hlen ↦ ?_,
    fun sender a ↦ ?_⟩
  · exact ⟨_, rfl, fun _ _ _ _ ↦ process_create hprogram rfl⟩
  · obtain ⟨ix, hix⟩ := (agent.exists_finishInstruction recipient sender a).mpr hlen
    exact ⟨ix, hix, fun _ _ _ _ ↦ process_finish hprogram hix⟩
  · exact ⟨_, rfl, fun _ _ _ _ ↦ process_cancel hprogram rfl⟩

/-! ## What the handlers can do, the instructions bring about -/

/-- What comes from an agent: a transaction with one of its instructions. Lamports move and slots
pass without it. -/
inductive SolanaAgent.Submits (agent : SolanaAgent) : Occurrence → Prop
  | create (moment : ℕ) {sender recipient a : Pubkey} {args : CreateEscrowArgs} {ix : Instruction}
      (h : agent.buildCreateInstruction sender recipient a args = some ix) :
      Submits agent (.transaction [.invoke ix moment])
  | finish (moment : ℕ) {recipient sender a : Pubkey} {receiptSeal : Bytes} {ix : Instruction}
      (h : agent.buildFinishInstruction recipient sender a receiptSeal = some ix) :
      Submits agent (.transaction [.invoke ix moment])
  | cancel (moment : ℕ) {sender a : Pubkey} {ix : Instruction}
      (h : agent.buildCancelInstruction sender a = some ix) :
      Submits agent (.transaction [.invoke ix moment])
  | transfer (source destination : Pubkey) (lamports : ℕ) :
      Submits agent (.transaction [.transfer source destination lamports])
  | advance (slots : ℕ) : Submits agent (.advance slots)

/-- An agent can send it: a release has no accounts for the router, and its seal can be written
down. -/
def Solana.Action.Sendable : Action → Prop
  | .finish _ _ _ _ remainingAccounts receiptSeal _ =>
    remainingAccounts = [] ∧ receiptSeal.length < 2 ^ 32
  | _ => True

/-- An agent can send the action, and the runtime lets it stand. -/
def Solana.World.Submittable (R : Runtime) (w : World) (action : Action) : Prop :=
  action.Sendable ∧ R.Permits w.accounts (w.step R action).accounts

theorem Solana.Chain.step_invoke {c : Chain} {ix : Instruction} {accounts : Accounts}
    {e : EscrowEvent} (h : process R c.slot moment ix c.accounts = .ok (accounts, e))
    (hpermits : R.Permits c.accounts accounts) :
    c.step R (.transaction [.invoke ix moment]) =
      { c with accounts := accounts, events := c.events ++ [e] } := by
  refine step_transaction ?_ hpermits
  rw [attempt, perform, h]
  rfl

theorem Solana.Chain.step_transfer {c : Chain} {source destination : Pubkey} {n : ℕ}
    {accounts : Accounts} (h : systemTransfer source destination n c.accounts = .ok accounts)
    (hpermits : R.Permits c.accounts accounts) :
    c.step R (.transaction [.transfer source destination n]) = { c with accounts := accounts } := by
  refine step_transaction ?_ hpermits
  rw [attempt, perform, h]
  rfl

theorem SolanaAgent.simulates (hprogram : agent.escrowProgramId = programId) (R : Runtime) :
    Simulates (fun w c ↦ Chain.Shows c w) (World.step R) (Chain.step R) (World.Submittable R)
      agent.Submits := by
  intro w c action hs ⟨hsendable, hpermits⟩
  have hnothing {w' : World} (h : w' = w) : ∃ history, (∀ o ∈ history, agent.Submits o) ∧
      (c.run R history).Shows w' := ⟨[], List.forall_mem_nil _, h ▸ hs⟩
  have hsubmit {o : Occurrence} {w' : World} (ho : agent.Submits o) (hs : (c.step R o).Shows w') :
      ∃ history, (∀ o ∈ history, agent.Submits o) ∧ (c.run R history).Shows w' :=
    ⟨[o], List.forall_mem_singleton.mpr ho, hs⟩
  cases action with
  | create sender recipient a args =>
    cases h : Solana.createEscrow R sender recipient a args w.accounts with
    | error e => exact hnothing (by rw [World.step, h])
    | ok result =>
      obtain ⟨accounts, e⟩ := result
      obtain ⟨ix, hix⟩ : ∃ ix, agent.buildCreateInstruction sender recipient a args = some ix :=
        ⟨_, rfl⟩
      have hprocess : process R c.slot 0 ix c.accounts = .ok (accounts, e) := by
        rw [process_create hprogram hix, hs.accounts, h]
        rfl
      refine hsubmit (.create 0 hix) ?_
      rw [World.step, h] at hpermits
      rw [Chain.step_invoke hprocess (hs.accounts ▸ hpermits)]
      exact hs.create h
  | finish recipient sender a verifierRouter remaining receiptSeal moment =>
    obtain ⟨rfl, hlen⟩ := hsendable
    cases h : Solana.finishEscrow R w.slot moment recipient sender a verifierRouter [] receiptSeal
        w.accounts with
    | error e => exact hnothing (by rw [World.step, h, settle_error])
    | ok result =>
      obtain ⟨accounts, e⟩ := result
      obtain ⟨escrow, hdata, hallowed, -⟩ := finishEscrow_eq_ok.mp h
      obtain rfl := hallowed.router
      obtain ⟨ix, hix⟩ := (agent.exists_finishInstruction recipient sender a).mpr hlen
      have hprocess : process R c.slot moment ix c.accounts = .ok (accounts, e) := by
        rw [process_finish hprogram hix, hs.accounts, hs.slot, h]
        rfl
      refine hsubmit (.finish moment hix) ?_
      rw [World.step, h, settle_eq_ok hdata] at hpermits
      rw [Chain.step_invoke hprocess (hs.accounts ▸ hpermits)]
      exact hs.finish h
  | cancel sender a =>
    cases h : Solana.cancelEscrow R w.slot sender a w.accounts with
    | error e => exact hnothing (by rw [World.step, h, settle_error])
    | ok result =>
      obtain ⟨accounts, e⟩ := result
      obtain ⟨escrow, hdata, -⟩ := cancelEscrow_eq_ok.mp h
      obtain ⟨ix, hix⟩ : ∃ ix, agent.buildCancelInstruction sender a = some ix := ⟨_, rfl⟩
      have hprocess : process R c.slot 0 ix c.accounts = .ok (accounts, e) := by
        rw [process_cancel hprogram hix, hs.accounts, hs.slot, h]
        rfl
      refine hsubmit (.cancel 0 hix) ?_
      rw [World.step, h, settle_eq_ok hdata] at hpermits
      rw [Chain.step_invoke hprocess (hs.accounts ▸ hpermits)]
      exact hs.cancel h
  | transfer source destination lamports =>
    cases h : systemTransfer source destination lamports w.accounts with
    | error e => exact hnothing (by rw [World.step, h])
    | ok accounts =>
      refine hsubmit (.transfer source destination lamports) ?_
      rw [World.step, h] at hpermits
      rw [Chain.step_transfer (hs.accounts ▸ h) (hs.accounts ▸ hpermits)]
      exact hs.transfer h
  | advance slots => exact hsubmit (.advance slots) (hs.advance slots)

/-- **The client's instructions are enough.** Every run of the handlers that the runtime lets stand
step by step, and whose releases have no accounts for the router and seals that can be written down,
is matched by a history in which everything that reaches the program is an instruction of the
agent. -/
theorem SolanaAgent.instructions_suffice (hprogram : agent.escrowProgramId = programId)
    (R : Runtime) (lamports : Pubkey → ℕ) (slot : ℕ) (actions : List Action)
    (hsubmittable : Along (World.step R) (World.Submittable R) (.init lamports slot) actions) :
    ∃ history, (∀ o ∈ history, agent.Submits o) ∧
      ((Chain.init lamports slot).run R history).Shows
        ((World.init lamports slot).run R actions) :=
  (simulates hprogram R).exists_run (Chain.shows_init lamports slot) hsubmittable

end

/-! ## The sample agent -/

namespace SolanaCreation

theorem instructions_exact_sample : ∃ ix,
    sample.agent.buildFinishInstruction sampleRecipient (.zero 32) sampleAddress [7] = some ix ∧
      Solana.process sampleRuntime 0 0 ix sampleFunded =
        (Solana.finishEscrow sampleRuntime 0 0 sampleRecipient (.zero 32) sampleAddress
          Solana.verifierRouterId [] [7] sampleFunded).mapError .program := by
  have hprogram : sample.agent.escrowProgramId = Solana.programId := rfl
  obtain ⟨ix, hix, hprocess⟩ := (SolanaAgent.instructions_exact hprogram).2.1 sampleRecipient
    (.zero 32) sampleAddress [7] (by decide)
  exact ⟨ix, hix, hprocess _ _ _ _⟩

/-- The agent's instructions create the sample. -/
theorem instructions_suffice_sample : ∃ history, (∀ o ∈ history, sample.agent.Submits o) ∧
    ((Solana.Chain.init sampleLamports 0).run sampleRuntime history).Shows
      ((Solana.World.init sampleLamports 0).run sampleRuntime [sample.action]) := by
  obtain ⟨ev, hcreate⟩ := sample.createEscrow_eq
  have hpermits : sampleRuntime.Permits sample.before sample.after :=
    (Solana.createEscrow_permits_iff hcreate).mpr (.inr (.inl (by decide +kernel)))
  rw [← step_accounts rfl] at hpermits
  exact SolanaAgent.instructions_suffice rfl _ _ _ _ ⟨⟨trivial, hpermits⟩, trivial⟩

end SolanaCreation

end Zescrow
