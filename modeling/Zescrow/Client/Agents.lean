import Zescrow.Core.IdentityText
import Zescrow.Core.Interface
import Zescrow.Ethereum.JournalBinding
import Zescrow.Solana.Program

/-!
# The chain agents of the client

How the client creates an escrow from its parameters, as a call of the contract or an instruction of
the program, and what it hands to the prover afterwards. What a chain does with a transaction is
what the contract and the program do; keys are third-party code, and an agent holds the address its
key signs as.
-/

open Foundation

namespace Zescrow

/-- Errors arising from client operations. -/
inductive ClientError where
  | keypair (role : String) (expected actual : Solana.Pubkey)
  | blockchain (e : String)
  | ethereum (context message : String)
  | solana (context message : String)
  | assetOverflow
  | missingEvent (e : String)
  deriving DecidableEq

/-! ## Ethereum -/

/-- `U256::from` of a `u64`. -/
def u256 (n : UInt64) : Ethereum.Word := BitVec.ofNat 256 n.toNat

/-- `B256::from` of an array. -/
def b256 (b : FixedBytes 32) : Ethereum.Word := BitVec.ofNat 256 (ofBE b.1)

/-- The contract an agent is for, and the address its sender signs as. -/
structure EthereumAgent where
  escrowAddress : Ethereum.Address
  sender : Ethereum.Address
  deriving DecidableEq

namespace EthereumAgent

section

variable (C : Codecs)

/-- Parses a 20-byte EVM address from a hex string, tolerating a prefix. -/
def parseAddress (s : Str) : Except ClientError Ethereum.Address := do
  let hexStr := stripHexPrefix s
  let bytes ← (C.hexDecode hexStr).mapError (.ethereum "parse_address")
  let array ← (Reader.tryInto 20 bytes).elim
    (.error (.ethereum "parse_address" "expected a 20-byte address")) .ok
  .ok (BitVec.ofNat 160 (ofBE array.1))

/-- Creates an agent from chain configuration. `signer` is the address of a private key. -/
def new (signer : Str → Except String Ethereum.Address) (config : ChainConfig) :
    Except ClientError EthereumAgent := do
  let escrowAddress ← parseAddress C config.agentId
  let sender ← (signer config.senderPrivateId).mapError (.ethereum "parse_key")
  .ok ⟨escrowAddress, sender⟩

/-- Converts the escrow amount to a `U256`. -/
def amount (params : EscrowParams) : Except ClientError Ethereum.Word :=
  if params.asset.amount < 2 ^ 256 then .ok (BitVec.ofNat 256 params.asset.amount)
  else .error .assetOverflow

/-- The new escrow's id. -/
def createdId (event : Ethereum.Event) : Except ClientError UInt64 :=
  match event with
  | .escrowCreated escrowId .. =>
    if escrowId.toNat < 2 ^ 64 then .ok (UInt64.ofNat escrowId.toNat)
    else .error (.missingEvent "escrow_id exceeds u64")
  | _ => .error (.missingEvent "EscrowCreated event not found")

/-- Creates an escrow on-chain, in the contract with storage `s`. -/
def createEscrow (agent : EthereumAgent) (block moment : ℕ) (params : EscrowParams)
    (condition : Option (FixedBytes 32)) (s : Ethereum.Storage) :
    Except ClientError (EscrowMetadata × Ethereum.Storage) := do
  let recipient ← parseAddress C (params.recipient.display C)
  let finishAfter := u256 (params.finishAfter.getD 0)
  let cancelAfter := u256 (params.cancelAfter.getD 0)
  let value ← amount params
  let conditionId := b256 (condition.getD (.zero 32))
  let (s, event) ← (Ethereum.createEscrow ⟨agent.sender, value, block, moment⟩ recipient finishAfter
    cancelAfter conditionId s).mapError fun _ ↦ .ethereum "createEscrow" "execution reverted"
  let escrowId ← createdId event
  .ok (⟨params, .funded, some escrowId⟩, s)

end

end EthereumAgent

/-! ## Solana -/

/-- The program an agent is for, and the public key of its sender's keypair. -/
structure SolanaAgent where
  senderKeypair : Solana.Pubkey
  escrowProgramId : Solana.Pubkey
  deriving DecidableEq

namespace SolanaAgent

section

variable (C : Codecs)

/-- Parses a public key from a string representation. -/
def parsePubkey (s : Str) : Except ClientError Solana.Pubkey :=
  (C.pubkeyFromStr s).mapError .blockchain

/-- Creates an agent from chain configuration. `keypair` reads the public key of a keypair file. -/
def new (keypair : Str → Except String Solana.Pubkey) (config : ChainConfig) :
    Except ClientError SolanaAgent := do
  let senderKeypair ← (keypair config.senderPrivateId).mapError .blockchain
  let escrowProgramId ← (parsePubkey C config.agentId).mapError fun _ ↦
    .solana "parse_program_id" "invalid address"
  .ok ⟨senderKeypair, escrowProgramId⟩

/-- Verifies that a keypair matches the expected public key. -/
def validateKeypair (keypair expected : Solana.Pubkey) (role : String) : Except ClientError Unit :=
  ensure (keypair = expected) (.keypair role expected keypair)

/-- `BigUint::to_u64`. -/
def toU64 (n : ℕ) : Option UInt64 := if n < 2 ^ 64 then some (UInt64.ofNat n) else none

/-- Creates an escrow on-chain, with the escrow id drawn. The program at another address than the
escrow program's is not this one. -/
def createEscrow (R : Solana.Runtime) (agent : SolanaAgent) (freshEscrowId : UInt64)
    (params : EscrowParams) (condition : Option (FixedBytes 32)) (accounts : Solana.Accounts) :
    Except ClientError (EscrowMetadata × Solana.Accounts) := do
  let sender ← parsePubkey C (params.sender.display C)
  validateKeypair agent.senderKeypair sender "sender"
  let recipient ← parsePubkey C (params.recipient.display C)
  let amount ← (toU64 params.asset.amount).elim (.error .assetOverflow) .ok
  let id := freshEscrowId
  let escrowPda := (R.findProgramAddress (Solana.escrowSeeds sender recipient id)).1
  let args : Solana.CreateEscrowArgs :=
    ⟨id, amount, params.finishAfter, params.cancelAfter, condition.getD (.zero 32)⟩
  ensure (agent.escrowProgramId = Solana.programId) (.solana "create_escrow" "no such program")
  let (accounts, _) ← (Solana.createEscrow R sender recipient escrowPda args accounts).mapError
    fun _ ↦ .solana "create_escrow" "transaction failed"
  .ok (⟨params, .funded, some id⟩, accounts)

end

end SolanaAgent

/-! ## The prover's input -/

/-- The input of the release proof of a conditioned escrow. -/
def releaseProofInput (C : Codecs) (P : Process) (fromStr : Str → Except String Condition)
    (metadata : EscrowMetadata) : Except EscrowError (Option ProofInput) :=
  if ¬metadata.params.hasConditions then .ok none else do
    let chain := metadata.params.chainConfig.chain
    let agentId ← ID.forChain C chain metadata.params.chainConfig.agentId
    let escrow ← Escrow.fromMetadata P fromStr metadata
    .ok (some ⟨escrow, chain, agentId, metadata.escrowId.getD 0⟩)

/-! ## What the agents do -/

theorem toNat_u256 (n : UInt64) : (u256 n).toNat = n.toNat := by
  rw [u256, BitVec.toNat_ofNat]
  exact Nat.mod_eq_of_lt (n.toNat_lt.trans (by norm_num))

theorem toBE_b256 (b : FixedBytes 32) : toBE 32 (b256 b).toNat = b.1 := by
  have hlt := ofBE_lt b.1
  rw [b.2] at hlt
  rw [b256, BitVec.toNat_ofNat, Nat.mod_eq_of_lt (hlt.trans_eq (by norm_num)),
    toBE_ofBE_of_length b.2]

theorem b256_inj {b c : FixedBytes 32} : b256 b = b256 c ↔ b = c := by
  constructor
  · intro h
    apply Subtype.ext
    rw [← toBE_b256 b, h, toBE_b256]
  · exact congrArg b256

open Ethereum (addressBytes)

theorem ofNat_ofBE_eq_iff {b : FixedBytes 20} {a : Ethereum.Address} :
    BitVec.ofNat 160 (ofBE b.1) = a ↔ b.1 = addressBytes a := by
  have hlt := ofBE_lt b.1
  rw [b.2] at hlt
  rw [addressBytes]
  constructor
  · rintro rfl
    rw [BitVec.toNat_ofNat, Nat.mod_eq_of_lt (hlt.trans_eq (by norm_num)), toBE_ofBE_of_length b.2]
  · intro h
    rw [h, ofBE_toBE (a.isLt.trans_eq (by norm_num)), BitVec.ofNat_toNat, BitVec.setWidth_eq]

/-- An address is parsed from its hex digits in either case, behind an optional prefix. -/
theorem EthereumAgent.parseAddress_eq_ok {C : Codecs} (hC : C.Standard) {s : Str}
    {a : Ethereum.Address} :
    parseAddress C s = .ok a ↔
      (stripHexPrefix s).map Char.toLower = Hex.encode (addressBytes a) := by
  rw [parseAddress, bind_eq_ok]
  simp only [mapError_eq_ok, hC.hexDecode, bind_eq_ok, elim_eq_ok, tryInto_eq_some,
    Except.ok.injEq, ofNat_ofBE_eq_iff]
  constructor
  · rintro ⟨b, hb, array, rfl, heq⟩
    rw [hb, heq]
  · intro h
    exact ⟨_, h, ⟨addressBytes a, length_toBE _ _⟩, rfl, rfl⟩

theorem EthereumAgent.amount_eq_ok {params : EscrowParams} {value : Ethereum.Word} :
    amount params = .ok value ↔
      params.asset.amount < 2 ^ 256 ∧ value = BitVec.ofNat 256 params.asset.amount := by
  rw [amount, ite_eq_ok]

theorem EthereumAgent.createdId_eq_ok {i : Ethereum.Word} {sender recipient : Ethereum.Address}
    {amount finishAfter cancelAfter conditionId : Ethereum.Word} {id : UInt64} :
    createdId (.escrowCreated i sender recipient amount finishAfter cancelAfter conditionId)
        = .ok id ↔ i.toNat < 2 ^ 64 ∧ id = UInt64.ofNat i.toNat := by
  rw [createdId, ite_eq_ok]

/-- The agent returns what it was asked for, with the id of the record the contract has written. -/
theorem EthereumAgent.createEscrow_eq_ok {C : Codecs} {agent : EthereumAgent} {block moment : ℕ}
    {params : EscrowParams} {condition : Option (FixedBytes 32)} {s s' : Ethereum.Storage}
    {m : EscrowMetadata} :
    agent.createEscrow C block moment params condition s = .ok (m, s') ↔
      ∃ recipient e, parseAddress C (params.recipient.display C) = .ok recipient ∧
        params.asset.amount < 2 ^ 256 ∧
        Ethereum.createEscrow ⟨agent.sender, BitVec.ofNat 256 params.asset.amount, block, moment⟩
          recipient (u256 (params.finishAfter.getD 0)) (u256 (params.cancelAfter.getD 0))
          (b256 (condition.getD (.zero 32))) s = .ok (s', e) ∧
        s'.nextEscrowId.toNat < 2 ^ 64 ∧
        m = ⟨params, .funded, some (UInt64.ofNat s'.nextEscrowId.toNat)⟩ := by
  rw [createEscrow, bind_eq_ok]
  simp only [amount_eq_ok, bind_eq_ok, mapError_eq_ok]
  constructor
  · rintro ⟨recipient, hrecipient, value, ⟨hamount, rfl⟩, ⟨s'', e⟩, hcreate, id, hid, hres⟩
    obtain ⟨rfl, rfl⟩ := Prod.mk.inj (Except.ok.inj hres)
    refine ⟨recipient, e, hrecipient, hamount, hcreate, ?_⟩
    obtain ⟨-, -, -, -, -, -, rfl, rfl⟩ := Ethereum.createEscrow_eq_ok.mp hcreate
    obtain ⟨hlt, rfl⟩ := createdId_eq_ok.mp hid
    exact ⟨hlt, rfl⟩
  · rintro ⟨recipient, e, hrecipient, hamount, hcreate, hlt, rfl⟩
    refine ⟨recipient, hrecipient, _, ⟨hamount, rfl⟩, (s', e), hcreate, _, ?_, rfl⟩
    obtain ⟨-, -, -, -, -, -, rfl, rfl⟩ := Ethereum.createEscrow_eq_ok.mp hcreate
    exact createdId_eq_ok.mpr ⟨hlt, rfl⟩

theorem SolanaAgent.parsePubkey_eq_ok {C : Codecs} (hC : C.Standard) {s : Str} {k : Solana.Pubkey} :
    parsePubkey C s = .ok k ↔ s = Base58.encode k.1 := by
  rw [parsePubkey, mapError_eq_ok, hC.pubkeyFromStr]

theorem SolanaAgent.toU64_eq_some {n : ℕ} {a : UInt64} : toU64 n = some a ↔ a.toNat = n := by
  rw [toU64, Option.ite_none_right_eq_some, Option.some.injEq]
  constructor
  · rintro ⟨hlt, rfl⟩
    exact UInt64.toNat_ofNat_of_lt' hlt
  · rintro rfl
    exact ⟨a.toNat_lt, UInt64.ofNat_toNat⟩

theorem SolanaAgent.createEscrow_eq_ok {C : Codecs} {R : Solana.Runtime} {agent : SolanaAgent}
    {freshEscrowId : UInt64} {params : EscrowParams} {condition : Option (FixedBytes 32)}
    {accounts accounts' : Solana.Accounts} {m : EscrowMetadata} :
    agent.createEscrow C R freshEscrowId params condition accounts = .ok (m, accounts') ↔
      ∃ recipient amount e, parsePubkey C (params.sender.display C) = .ok agent.senderKeypair ∧
        parsePubkey C (params.recipient.display C) = .ok recipient ∧
        amount.toNat = params.asset.amount ∧ agent.escrowProgramId = Solana.programId ∧
        Solana.createEscrow R agent.senderKeypair recipient
          (R.findProgramAddress (Solana.escrowSeeds agent.senderKeypair recipient freshEscrowId)).1
          ⟨freshEscrowId, amount, params.finishAfter, params.cancelAfter,
            condition.getD (.zero 32)⟩ accounts = .ok (accounts', e) ∧
        m = ⟨params, .funded, some freshEscrowId⟩ := by
  rw [createEscrow, bind_eq_ok]
  simp only [validateKeypair, ensure_eq_ok, bind_eq_ok, mapError_eq_ok, elim_eq_ok, toU64_eq_some]
  constructor
  · rintro ⟨sender, hsender, _, rfl, recipient, hrecipient, amount, hamount, _, hprogram,
      ⟨accounts'', e⟩, hcreate, hres⟩
    obtain ⟨rfl, rfl⟩ := Prod.mk.inj (Except.ok.inj hres)
    exact ⟨recipient, amount, e, hsender, hrecipient, hamount, hprogram, hcreate, rfl⟩
  · rintro ⟨recipient, amount, e, hsender, hrecipient, hamount, hprogram, hcreate, rfl⟩
    exact ⟨_, hsender, (), rfl, recipient, hrecipient, amount, hamount, (), hprogram,
      (accounts', e), hcreate, rfl⟩

/-- The prover is given the parameters as they are, with the condition of the conditions file. -/
theorem releaseProofInput_eq_ok {C : Codecs} {P : Process} {fromStr : Str → Except String Condition}
    {m : EscrowMetadata} {input : ProofInput} :
    releaseProofInput C P fromStr m = .ok (some input) ↔
      m.params.hasConditions = true ∧ ∃ agentId escrow,
        ID.forChain C m.params.chainConfig.chain m.params.chainConfig.agentId = .ok agentId ∧
        Escrow.fromMetadata P fromStr m = .ok escrow ∧
        input = ⟨escrow, m.params.chainConfig.chain, agentId, m.escrowId.getD 0⟩ := by
  rw [releaseProofInput]
  by_cases hcond : m.params.hasConditions = true
  · rw [if_neg (not_not_intro hcond), and_iff_right hcond, bind_eq_ok]
    simp only [bind_eq_ok, Except.ok.injEq, Option.some.injEq]
    constructor
    · rintro ⟨agentId, hagent, escrow, hescrow, rfl⟩
      exact ⟨agentId, escrow, hagent, hescrow, rfl⟩
    · rintro ⟨agentId, escrow, hagent, hescrow, rfl⟩
      exact ⟨agentId, hagent, escrow, hescrow, rfl⟩
  · rw [if_pos hcond]
    refine iff_of_false ?_ fun h ↦ hcond h.1
    rw [Except.ok.injEq]
    exact (Option.some_ne_none input).symm

end Zescrow
