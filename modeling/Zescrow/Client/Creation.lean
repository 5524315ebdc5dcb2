import Zescrow.Client.Addresses
import Zescrow.Prover.Guest
import Zescrow.Solana.Journal

/-!
# From the parameters to the released escrow

The client creates an escrow from its parameters, the guest commits what the parameters say once the
condition is met, and the chain compares that with what the creation has recorded. Three readings of
the parameters meet here: the record holds the key that signed, the coin that was sent and the
recipient as parsed, and the commitment holds the sender, the asset and the recipient as written.
-/

open Foundation

namespace Zescrow

open Ethereum (addressBytes checkJournalBinding releaseCommitment)

variable {C : Codecs}

/-! ## The release proof -/

/-- A release proof of an escrow: the input the client builds from the metadata, with the condition
the escrow was created for, and the journal the guest commits for it, the condition being met. -/
structure Release (C : Codecs) (metadata : EscrowMetadata)
    (condition : Option (FixedBytes 32)) where
  process : Process
  fromStr : Str → Except String Condition
  input : ProofInput
  input_eq : releaseProofInput C process fromStr metadata = .ok (some input)
  condition_eq : condition = input.escrow.condition.map fun c ↦ c.commitment C.toCrates
  decode : DecodeInput
  frame : Bytes
  decode_eq : decode frame = .ok input
  journal : Bytes
  journal_eq : Guest.main C.toCrates decode frame = .ok journal
  met : Guest.outcome (input.escrow.execute C.toCrates).1 = .success .conditionsMet

/-- What a record's commitment says of sender, recipient and asset is what the parameters say. -/
structure EscrowParams.RecordedAs (K : Crates) (params : EscrowParams) (c : PublicCommitment) :
    Prop where
  sender : params.sender.toBytes K = .ok c.sender
  recipient : params.recipient.toBytes K = .ok c.recipient
  assetKind : c.assetKind = params.asset.kind
  assetToken : params.asset.tokenBytes K = .ok c.assetToken
  amount : c.amount = params.asset.amount

/-- The asset the agents settle: the native coin, naming no token. -/
structure Asset.IsNative (K : Crates) (a : Asset) : Prop where
  kind : a.kind = .native
  token : ∀ id, a.agentId = some id → id.toBytes K = .ok []

theorem Asset.tokenBytes_eq_nil_iff {K : Crates} {a : Asset} :
    a.tokenBytes K = .ok [] ↔ ∀ id, a.agentId = some id → id.toBytes K = .ok [] := by
  rw [tokenBytes]
  cases a.agentId with
  | none => simp
  | some id => simp

namespace Release

variable {metadata : EscrowMetadata} {condition : Option (FixedBytes 32)}

/-- The journal is the encoding of the one commitment that carries the input. -/
theorem toJournalBytes_eq_iff (p : Release C metadata condition) {c : PublicCommitment}
    (hc : c.outcome = .success .conditionsMet) :
    c.toJournalBytes = .ok p.journal ↔ p.input.Carries C.toCrates c := by
  obtain ⟨input, c', hinput, hnew, hjournal⟩ := Guest.main_eq_ok.mp p.journal_eq
  obtain rfl := Except.ok.inj (p.decode_eq.symm.trans hinput)
  rw [p.met] at hnew
  constructor
  · intro h
    obtain rfl := PublicCommitment.toJournalBytes_inj h hjournal
    exact (PublicCommitment.new_eq_ok.mp hnew).1
  · intro h
    have hnew' := PublicCommitment.new_eq_ok.mpr ⟨h, hc⟩
    obtain rfl := Except.ok.inj (hnew.symm.trans hnew')
    exact hjournal

/-- A commitment that names the chain, the agent, the escrow and the condition encodes to the
journal exactly if it says of the rest what the parameters say. -/
theorem toJournalBytes_eq_iff_recordedAs (p : Release C metadata condition) {c : PublicCommitment}
    (hc : c.outcome = .success .conditionsMet)
    (hchain : c.chain = metadata.params.chainConfig.chain)
    (hagent : ∀ id, ID.forChain C metadata.params.chainConfig.chain
      metadata.params.chainConfig.agentId = .ok id → id.toBytes C.toCrates = .ok c.agentId)
    (hid : c.escrowId = metadata.escrowId.getD 0)
    (hcond : c.condition = condition.getD (.zero 32)) :
    c.toJournalBytes = .ok p.journal ↔ metadata.params.RecordedAs C.toCrates c := by
  obtain ⟨hconditions, agentId, escrow, hforChain, hescrow, hinput⟩ :=
    releaseProofInput_eq_ok.mp p.input_eq
  obtain ⟨_, cond, -, -, rfl⟩ := (Escrow.fromMetadata_eq_ok hconditions).mp hescrow
  have hcondition := p.condition_eq
  rw [p.toJournalBytes_eq_iff hc]
  rw [hinput] at hcondition ⊢
  constructor
  · intro h
    exact ⟨h.sender, h.recipient, h.assetKind, h.assetToken, h.amount⟩
  · intro h
    exact ⟨hchain, hagent agentId hforChain, hid, h.sender, h.recipient, h.assetKind, h.assetToken,
      h.amount, by rw [hcond, hcondition, conditionCommitment]⟩

end Release

/-! ## Ethereum -/

/-- An escrow created by the Ethereum client, with an agent for its parameters. -/
structure EthereumCreation (C : Codecs) where
  signer : Str → Except String Ethereum.Address
  params : EscrowParams
  chain_eq : params.chainConfig.chain = .ethereum
  agent : EthereumAgent
  agent_eq : EthereumAgent.new C signer params.chainConfig = .ok agent
  block : ℕ
  moment : ℕ
  condition : Option (FixedBytes 32)
  before : Ethereum.Storage
  metadata : EscrowMetadata
  after : Ethereum.Storage
  created : agent.createEscrow C block moment params condition before = .ok (metadata, after)

namespace EthereumCreation

/-- The record the contract has written. -/
def escrow (x : EthereumCreation C) : Ethereum.EscrowDB := x.after.escrows x.after.nextEscrowId

/-- The commitment the contract expects. -/
def commitment (x : EthereumCreation C) : PublicCommitment :=
  releaseCommitment x.agent.escrowAddress x.escrow x.after.nextEscrowId

/-- The contract accepts a journal as one of the escrow. -/
def Accepts (x : EthereumCreation C) (journal : Bytes) : Prop :=
  checkJournalBinding x.agent.escrowAddress x.escrow x.after.nextEscrowId journal = .ok ()

theorem escrowAddress_eq (x : EthereumCreation C) :
    EthereumAgent.parseAddress C x.params.chainConfig.agentId = .ok x.agent.escrowAddress := by
  have h := x.agent_eq
  simp only [EthereumAgent.new, bind_eq_ok] at h
  obtain ⟨a, ha, sender, -, hagent⟩ := h
  rw [ha, ← Except.ok.inj hagent]

theorem escrow_eq (x : EthereumCreation C) : ∃ recipient,
    EthereumAgent.parseAddress C (x.params.recipient.display C) = .ok recipient ∧
    x.params.asset.amount < 2 ^ 256 ∧ x.after.nextEscrowId.toNat < 2 ^ 64 ∧
    x.metadata = ⟨x.params, .funded, some (UInt64.ofNat x.after.nextEscrowId.toNat)⟩ ∧
    x.escrow = ⟨x.agent.sender, recipient, BitVec.ofNat 256 x.params.asset.amount,
      u256 (x.params.finishAfter.getD 0), u256 (x.params.cancelAfter.getD 0),
      b256 (x.condition.getD (.zero 32)), false⟩ := by
  obtain ⟨recipient, e, hrecipient, hamount, hcreate, hid, hmetadata⟩ :=
    EthereumAgent.createEscrow_eq_ok.mp x.created
  obtain ⟨-, -, -, -, -, -, hafter, -⟩ := Ethereum.createEscrow_eq_ok.mp hcreate
  refine ⟨recipient, hrecipient, hamount, hid, hmetadata, ?_⟩
  rw [escrow, hafter, Ethereum.Storage.issue_nextEscrowId, Ethereum.Storage.issue_escrows_self]
  rfl

/-- The contract accepts the journal exactly if it has recorded the parameters. -/
theorem accepts_iff_recordedAs (hC : C.Standard) (x : EthereumCreation C)
    (p : Release C x.metadata x.condition) :
    x.Accepts p.journal ↔ x.params.RecordedAs C.toCrates x.commitment := by
  obtain ⟨recipient, -, -, hid, hmetadata, hescrow⟩ := x.escrow_eq
  have hparams : x.metadata.params = x.params := by rw [hmetadata]
  have haddress := (EthereumAgent.parseAddress_eq_ok hC).mp x.escrowAddress_eq
  rw [Accepts, Ethereum.checkJournalBinding_eq_ok, and_iff_right hid, ← commitment,
    p.toJournalBytes_eq_iff_recordedAs rfl, hparams]
  · rw [hparams, x.chain_eq]
    rfl
  · intro id hforChain
    rw [hparams, x.chain_eq] at hforChain
    exact ID.toBytes_of_forChain hC hforChain haddress
  · rw [hmetadata]
    rfl
  · apply Subtype.ext
    rw [commitment, hescrow]
    exact toBE_b256 _

/-- The contract has recorded the parameters exactly if they are of the native coin, the sender is
the one who signed, and the recipient is in plain hex. -/
theorem recordedAs_iff (hC : C.Standard) (x : EthereumCreation C) :
    x.params.RecordedAs C.toCrates x.commitment ↔
      x.params.asset.IsNative C.toCrates ∧
      x.params.sender.toBytes C.toCrates = .ok (addressBytes x.agent.sender) ∧
      x.params.recipient.identity.PlainHex := by
  obtain ⟨recipient, hrecipient, hamount, -, -, hescrow⟩ := x.escrow_eq
  have htext := (EthereumAgent.parseAddress_eq_ok hC).mp hrecipient
  have hvalue : (BitVec.ofNat 256 x.params.asset.amount).toNat = x.params.asset.amount := by
    rw [BitVec.toNat_ofNat, Nat.mod_eq_of_lt hamount]
  rw [commitment, hescrow]
  constructor
  · intro h
    let b : FixedBytes 20 := ⟨addressBytes recipient, length_toBE _ _⟩
    have hplain := ID.plainHex_of_toBytes (b := b) hC ⟨b, htext⟩ h.recipient
    exact ⟨⟨h.assetKind.symm, Asset.tokenBytes_eq_nil_iff.mp h.assetToken⟩, h.sender, hplain⟩
  · rintro ⟨hnative, hsender, hplain⟩
    exact ⟨hsender, (hplain.toBytes_eq_ok hC).mpr htext, hnative.kind.symm,
      Asset.tokenBytes_eq_nil_iff.mpr hnative.token, hvalue⟩

end EthereumCreation

/-! ## Solana -/

/-- An escrow created by the Solana client, with an agent for its parameters. -/
structure SolanaCreation (C : Codecs) where
  runtime : Solana.Runtime
  keypair : Str → Except String Solana.Pubkey
  params : EscrowParams
  chain_eq : params.chainConfig.chain = .solana
  agent : SolanaAgent
  agent_eq : SolanaAgent.new C keypair params.chainConfig = .ok agent
  recipient : Solana.Pubkey
  recipient_eq : SolanaAgent.parsePubkey C (params.recipient.display C) = .ok recipient
  freshEscrowId : UInt64
  condition : Option (FixedBytes 32)
  before : Solana.Accounts
  metadata : EscrowMetadata
  after : Solana.Accounts
  created :
    agent.createEscrow C runtime freshEscrowId params condition before = .ok (metadata, after)

namespace SolanaCreation

theorem escrowProgramId_eq (x : SolanaCreation C) :
    SolanaAgent.parsePubkey C x.params.chainConfig.agentId = .ok x.agent.escrowProgramId := by
  have h := x.agent_eq
  simp only [SolanaAgent.new, bind_eq_ok, mapError_eq_ok] at h
  obtain ⟨sender, -, a, ha, hagent⟩ := h
  rw [ha, ← Except.ok.inj hagent]

/-- The address of the escrow account. -/
def address (x : SolanaCreation C) : Solana.Pubkey :=
  (x.runtime.findProgramAddress
    (Solana.escrowSeeds x.agent.senderKeypair x.recipient x.freshEscrowId)).1

theorem exists_escrow (x : SolanaCreation C) :
    SolanaAgent.parsePubkey C (x.params.sender.display C) = .ok x.agent.senderKeypair ∧
    x.agent.escrowProgramId = Solana.programId ∧
    x.metadata = ⟨x.params, .funded, some x.freshEscrowId⟩ ∧
    ∃ amount : UInt64, amount.toNat = x.params.asset.amount ∧
      (x.after x.address).data = some (Solana.newEscrow x.runtime x.agent.senderKeypair x.recipient
        ⟨x.freshEscrowId, amount, x.params.finishAfter, x.params.cancelAfter,
          x.condition.getD (.zero 32)⟩) := by
  obtain ⟨recipient, amount, e, hsender, hrecipient, hamount, hprogram, hcreate, hmetadata⟩ :=
    SolanaAgent.createEscrow_eq_ok.mp x.created
  obtain rfl := Except.ok.inj (hrecipient.symm.trans x.recipient_eq)
  obtain ⟨-, -, -, -, -, _, funded, -, -, hafter, -⟩ := Solana.createEscrow_eq_ok.mp hcreate
  refine ⟨hsender, hprogram, hmetadata, amount, hamount, ?_⟩
  rw [hafter, address, Solana.Accounts.setData, Function.update_self]

/-- The program expects the journal exactly if it has recorded the parameters. -/
theorem reconstructs_iff_recordedAs (hC : C.Standard) (x : SolanaCreation C)
    (p : Release C x.metadata x.condition) {escrow : Solana.EscrowAccount}
    (hescrow : (x.after x.address).data = some escrow) :
    p.journal = Solana.reconstructJournal escrow ↔
      x.params.RecordedAs C.toCrates escrow.releaseCommitment := by
  obtain ⟨-, hprogram, hmetadata, amount, -, hdata⟩ := x.exists_escrow
  obtain rfl := Option.some.inj (hdata.symm.trans hescrow)
  have hparams : x.metadata.params = x.params := by rw [hmetadata]
  have htext := (SolanaAgent.parsePubkey_eq_ok hC).mp x.escrowProgramId_eq
  rw [← Solana.toJournalBytes_releaseCommitment_iff, p.toJournalBytes_eq_iff_recordedAs rfl,
    hparams]
  · rw [hparams, x.chain_eq]
    rfl
  · intro id hforChain
    rw [hparams, x.chain_eq, htext, hprogram] at hforChain
    exact ID.toBytes_of_forChain hC hforChain rfl
  · rw [hmetadata]
    rfl
  · rfl

theorem recordedAs_iff (hC : C.Standard) (x : SolanaCreation C) {escrow : Solana.EscrowAccount}
    (hescrow : (x.after x.address).data = some escrow) :
    x.params.RecordedAs C.toCrates escrow.releaseCommitment ↔
      x.params.asset.IsNative C.toCrates ∧ x.params.sender.identity.IsBase58 ∧
      x.params.recipient.identity.IsBase58 := by
  obtain ⟨hsender, -, -, amount, hamount, hdata⟩ := x.exists_escrow
  obtain rfl := Option.some.inj (hdata.symm.trans hescrow)
  have hkey {party : Party} {k : Solana.Pubkey}
      (hparty : SolanaAgent.parsePubkey C (party.display C) = .ok k) :
      party.toBytes C.toCrates = .ok k.1 ↔ party.identity.IsBase58 := by
    have htext := (SolanaAgent.parsePubkey_eq_ok hC).mp hparty
    constructor
    · exact ID.isBase58_of_toBytes hC ⟨k, htext⟩
    · intro hbase
      exact (hbase.toBytes_eq_ok hC).mpr htext
  constructor
  · intro h
    exact ⟨⟨h.assetKind.symm, Asset.tokenBytes_eq_nil_iff.mp h.assetToken⟩,
      (hkey hsender).mp h.sender, (hkey x.recipient_eq).mp h.recipient⟩
  · rintro ⟨hnative, hbase, hbase'⟩
    exact ⟨(hkey hsender).mpr hbase, (hkey x.recipient_eq).mpr hbase', hnative.kind.symm,
      Asset.tokenBytes_eq_nil_iff.mpr hnative.token, hamount⟩

end SolanaCreation

/-! ## Both chains -/

/-- **When the proof describes the escrow that was created.** Of an escrow the client has created,
the chain accepts the journal of a release proof, and has recorded the sender, recipient, amount and
asset of the parameters, exactly if these are of the native coin without a token, the sender is the
one who signed, and the parties are stored under the encoding of the chain. -/
theorem creation_describes_iff (hC : C.Standard) :
    (∀ (x : EthereumCreation C) (p : Release C x.metadata x.condition),
      (x.Accepts p.journal ∧ x.params.RecordedAs C.toCrates x.commitment) ↔
        x.params.asset.IsNative C.toCrates ∧
        x.params.sender.toBytes C.toCrates = .ok (addressBytes x.agent.sender) ∧
        x.params.recipient.identity.PlainHex) ∧
    ∀ (x : SolanaCreation C) (p : Release C x.metadata x.condition),
      ∃ escrow, (x.after x.address).data = some escrow ∧
        ((p.journal = Solana.reconstructJournal escrow ∧
            x.params.RecordedAs C.toCrates escrow.releaseCommitment) ↔
          x.params.asset.IsNative C.toCrates ∧ x.params.sender.identity.IsBase58 ∧
          x.params.recipient.identity.IsBase58) := by
  constructor
  · intro x p
    rw [x.accepts_iff_recordedAs hC p, and_self, x.recordedAs_iff hC]
  · intro x p
    obtain ⟨-, -, -, amount, -, hdata⟩ := x.exists_escrow
    refine ⟨_, hdata, ?_⟩
    rw [x.reconstructs_iff_recordedAs hC p hdata, and_self, x.recordedAs_iff hC hdata]

/-! ## A creation for the native coin, and one for a token -/

/-- Five units of an asset. -/
def Asset.sample : AssetKind → Asset
  | .native => ⟨.native, none, 5, none⟩
  | .token => ⟨.token, some (.hex (List.replicate 40 'c')), 5, none⟩

/-- A condition with its witness. -/
def Condition.sample : Condition :=
  .hashlock ⟨Codecs.sample.sha256 (ascii "secret"), ascii "secret"⟩

/-- Parameters that name the contract, the signing key and the recipient by their bytes in hex. -/
def hexParams (kind : AssetKind) : EscrowParams where
  chainConfig := ⟨.ethereum, [], [], List.replicate 40 'e'⟩
  asset := .sample kind
  sender := ⟨.hex (List.replicate 40 'b')⟩
  recipient := plainParty
  finishAfter := none
  cancelAfter := some 10
  hasConditions := true

/-- The address whose bytes are all `b`. -/
def repeated (b : UInt8) : Ethereum.Address := BitVec.ofNat 160 (ofBE (List.replicate 20 b))

/-- The record of the sample. -/
def sampleRecord : Ethereum.EscrowDB :=
  ⟨repeated 0xbb, repeated 0xaa, 5, 0, 10,
    b256 (Condition.sample.commitment Codecs.sample.toCrates), false⟩

/-- The client creates the sample escrow in an empty contract. -/
def EthereumCreation.sample (kind : AssetKind) : EthereumCreation .sample where
  signer _ := .ok (repeated 0xbb)
  params := hexParams kind
  chain_eq := rfl
  agent := ⟨repeated 0xee, repeated 0xbb⟩
  agent_eq := by cases kind <;> decide
  block := 0
  moment := 0
  condition := some (Condition.sample.commitment Codecs.sample.toCrates)
  before := .init
  metadata := ⟨hexParams kind, .funded, some 1⟩
  after := Ethereum.Storage.init.issue sampleRecord
  created := by
    cases kind <;> exact EthereumAgent.createEscrow_eq_ok.mpr
      ⟨repeated 0xaa, _, by decide, by decide, Ethereum.createEscrow_eq_ok.mpr
        ⟨by decide, by decide, by decide, fun h ↦ absurd h.2 (by decide), by decide, by decide,
          rfl, rfl⟩, by decide, rfl⟩

/-- The bytes of the sample token. -/
def sampleToken : AssetKind → Bytes
  | .native => []
  | .token => List.replicate 20 0xcc

/-- What the guest commits for the sample. -/
def sampleCommitment (kind : AssetKind) : PublicCommitment where
  chain := .ethereum
  agentId := List.replicate 20 0xee
  escrowId := 1
  sender := List.replicate 20 0xbb
  recipient := List.replicate 20 0xaa
  assetKind := kind
  assetToken := sampleToken kind
  amount := 5
  condition := Condition.sample.commitment Codecs.sample.toCrates
  outcome := .success .conditionsMet

/-- What the client hands to the prover for the sample. -/
def sampleInput (kind : AssetKind) : ProofInput where
  escrow :=
    ⟨.sample kind, plainParty, ⟨.hex (List.replicate 40 'b')⟩, some Condition.sample, .funded⟩
  chain := .ethereum
  agentId := .hex (List.replicate 40 'e')
  escrowId := 1

theorem outcome_sampleInput (kind : AssetKind) :
    Guest.outcome ((sampleInput kind).escrow.execute Codecs.sample.toCrates).1
      = .success .conditionsMet := by
  refine Guest.outcome_eq_success.mpr ⟨rfl, rfl, ?_, ?_, ?_⟩
  · cases kind <;> decide
  · cases kind <;> decide
  · intro c hc
    obtain rfl := Option.some.inj hc
    exact Condition.satisfied_hashlock.mpr rfl

theorem new_sampleInput (kind : AssetKind) :
    PublicCommitment.new Codecs.sample.toCrates (sampleInput kind) (.success .conditionsMet)
      = .ok (sampleCommitment kind) := by
  refine PublicCommitment.new_eq_ok.mpr ⟨⟨rfl, ?_, rfl, ?_, ?_, ?_, ?_, ?_, rfl⟩, rfl⟩
  all_goals cases kind <;> decide

/-- The release proof of the sample escrow. -/
def Release.sample (kind : AssetKind) :
    Release .sample (EthereumCreation.sample kind).metadata
      (EthereumCreation.sample kind).condition where
  process := ⟨[], fun _ ↦ .ok [], fun _ ↦ none⟩
  fromStr _ := .ok Condition.sample
  input := sampleInput kind
  input_eq := by
    refine releaseProofInput_eq_ok.mpr ⟨rfl, _, _, ?_, rfl, rfl⟩
    cases kind <;> decide
  condition_eq := rfl
  decode _ := .ok (sampleInput kind)
  frame := []
  decode_eq := rfl
  journal := (sampleCommitment kind).layout
  journal_eq := by
    refine Guest.main_eq_ok.mpr ⟨_, _, rfl, ?_, PublicCommitment.toJournalBytes_iff.mpr ⟨?_, rfl⟩⟩
    · rw [outcome_sampleInput]
      exact new_sampleInput kind
    · constructor
      all_goals cases kind <;> decide
  met := outcome_sampleInput kind

/-- For the native coin the journal is accepted. -/
theorem creation_describes_iff_sample :
    (EthereumCreation.sample .native).Accepts (Release.sample .native).journal := by
  have hiff := (creation_describes_iff Codecs.standard_sample).1 (.sample .native) (.sample .native)
  refine (hiff.mpr ⟨⟨rfl, ?_⟩, by decide, _, rfl, by decide⟩).1
  intro id hid
  exact absurd hid.symm (Option.some_ne_none id)

/-- For a token the same coin is locked, and the journal is refused. -/
theorem creation_of_token :
    ¬(EthereumCreation.sample .token).Accepts (Release.sample .token).journal := by
  intro haccepts
  have hrecorded := (EthereumCreation.accepts_iff_recordedAs Codecs.standard_sample _ _).mp haccepts
  obtain ⟨⟨hkind, -⟩, -⟩ :=
    (EthereumCreation.recordedAs_iff Codecs.standard_sample _).mp hrecorded
  exact absurd hkind (by decide)

end Zescrow
