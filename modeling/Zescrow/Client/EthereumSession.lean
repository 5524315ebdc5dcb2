import Zescrow.Client.EthereumSettle
import Zescrow.Client.Session

/-!
# Sessions on Ethereum

The commands with the Ethereum agent. What `create` makes of the files is an escrow of the contract;
when `finish` and `cancel` settle it, however much later, can be read off the parameters, the
condition and the state of the contract, and so can where the money goes.
-/

open Foundation

namespace Zescrow

open Ethereum (Machine payouts)

/-- The machine is run. -/
def Ethereum.Machine.Reaches (D : Ethereum.Deployment) (m m' : Machine) : Prop :=
  ∃ actions, m' = m.run D actions

namespace EthereumAgent

section

variable (C : Codecs) (D : Ethereum.Deployment) (agent : EthereumAgent)

/-- The transaction that creates an escrow, at some moment. -/
def createTransaction (params : EscrowParams) (condition : Option (FixedBytes 32)) :
    Except ClientError (ℕ → Ethereum.Action) := do
  let recipient ← parseAddress C (params.recipient.display C)
  let value ← amount params
  .ok fun moment ↦ .call agent.sender value moment (.createEscrow recipient
    (u256 (params.finishAfter.getD 0)) (u256 (params.cancelAfter.getD 0))
    (b256 (condition.getD (.zero 32))))

/-- Sends the transaction that creates an escrow, and reads the id from its receipt. It is refused
if its estimate reverts. The contract at another address than the agent's is not this one. -/
def submitCreate (tx : Submission) (params : EscrowParams) (condition : Option (FixedBytes 32)) :
    Effect Machine ClientError EscrowMetadata := fun m ↦
  match agent.createTransaction C params condition with
  | .error e => (.error e, m)
  | .ok action =>
    if agent.escrowAddress ≠ D.self then (.error (.ethereum "createEscrow" "no such contract"), m)
    else if (m.step D (action tx.estimate.moment)).world.log = m.world.log then
      (.error (.ethereum "createEscrow" "execution reverted"), m)
    else
      let m := m.run D tx.before
      ((agent.createEscrow C m.block tx.included.moment params condition m.world.storage).map
        Prod.fst, m.step D (action tx.included.moment))

/-- The agent as the client uses it. `recipient` is the address of the recipient's wallet, if one is
configured. -/
def toAgent (recipient : Option Ethereum.Address) (tx : Submission) : Agent Machine where
  createEscrow := agent.submitCreate C D tx
  finishEscrow metadata proof := .update (agent.finishEscrow D recipient tx metadata proof)
  cancelEscrow metadata := .update (agent.cancelEscrow D tx metadata)

/-- The agents of a client whose transactions meet `tx`. `signer` is the address of a private
key. -/
def agents (signer : Str → Except String Ethereum.Address) (tx : Submission)
    (solana : ChainConfig → Option Str → Except ClientError (Agent Machine)) : Agents Machine where
  ethereum config recipientKey := do
    let agent ← EthereumAgent.new C signer config
    let recipient ← (match recipientKey with
      | some key => do
        let wallet ← (signer key).mapError (.ethereum "parse_key")
        .ok (some wallet)
      | none => .ok none : Except ClientError (Option Ethereum.Address))
    .ok (agent.toAgent C D recipient tx)
  solana := solana

end

end EthereumAgent

/-! ## Reaching a state -/

namespace Ethereum.Machine

variable {D : Ethereum.Deployment} {m m₁ m₂ : Machine}

theorem Reaches.refl (m : Machine) : m.Reaches D m := ⟨[], rfl⟩

theorem Reaches.trans (h : m.Reaches D m₁) (h' : m₁.Reaches D m₂) : m.Reaches D m₂ := by
  obtain ⟨actions, rfl⟩ := h
  obtain ⟨later, rfl⟩ := h'
  exact ⟨actions ++ later, by rw [run, run, run, run_append]⟩

theorem reaches_run (m : Machine) (actions : List Ethereum.Action) :
    m.Reaches D (m.run D actions) := ⟨actions, rfl⟩

end Ethereum.Machine

/-! ## What the agents do -/

namespace EthereumAgent

variable {C : Codecs} {D : Ethereum.Deployment} {agent : EthereumAgent}
  {signer : Str → Except String Ethereum.Address} {tx : Submission}
  {solana : ChainConfig → Option Str → Except ClientError (Agent Machine)} {m m' : Machine}

theorem createEscrow_toAgent (recipient : Option Ethereum.Address) :
    (agent.toAgent C D recipient tx).createEscrow = agent.submitCreate C D tx := rfl

theorem submitCreate_eq_ok {params : EscrowParams} {condition : Option (FixedBytes 32)}
    {metadata : EscrowMetadata} :
    agent.submitCreate C D tx params condition m = (.ok metadata, m') ↔
      ∃ action s, agent.createTransaction C params condition = .ok action ∧
        agent.escrowAddress = D.self ∧
        (m.step D (action tx.estimate.moment)).world.log ≠ m.world.log ∧
        agent.createEscrow C (m.run D tx.before).block tx.included.moment params condition
          (m.run D tx.before).world.storage = .ok (metadata, s) ∧
        m' = (m.run D tx.before).step D (action tx.included.moment) := by
  constructor
  · intro h
    rw [submitCreate] at h
    split at h
    · exact absurd (congrArg Prod.fst h) error_ne_ok
    · next action haction =>
      split at h
      · exact absurd (congrArg Prod.fst h) error_ne_ok
      · next hself =>
        split at h
        · exact absurd (congrArg Prod.fst h) error_ne_ok
        · next hlog =>
          obtain ⟨hcreate, rfl⟩ := Prod.mk.inj h
          obtain ⟨⟨metadata', s⟩, hcreate', rfl⟩ := map_eq_ok.mp hcreate
          exact ⟨action, s, haction, not_not.mp hself, hlog, hcreate', rfl⟩
  · rintro ⟨action, s, haction, hself, hlog, hcreate, rfl⟩
    simp only [submitCreate, haction]
    rw [if_neg (not_not_intro hself), if_neg hlog, hcreate]
    rfl

/-- Whatever the agent does is a run of the machine. -/
theorem within_toAgent (recipient : Option Ethereum.Address) :
    (agent.toAgent C D recipient tx).Within (Machine.Reaches D) := by
  have hsend {signer : Ethereum.Address} {call : Ethereum.Call} {operation : String}
      {m m' : Machine} (h : send D signer call tx operation m = .ok m') : m.Reaches D m' := by
    obtain ⟨-, rfl⟩ := send_eq_ok.mp h
    exact (m.reaches_run _).trans (Machine.reaches_run _ _)
  constructor
  · intro params condition m
    simp only [toAgent, submitCreate]
    split
    · exact .refl m
    · split
      · exact .refl m
      · split
        · exact .refl m
        · exact (m.reaches_run _).trans (Machine.reaches_run _ [_])
  · intro metadata proof
    refine Effect.keeps_update Machine.Reaches.refl fun m m' h ↦ ?_
    simp only [finishEscrow, bind_eq_ok] at h
    obtain ⟨id, -, wallet, -, -, -, h⟩ := h
    exact hsend h
  · intro metadata
    refine Effect.keeps_update Machine.Reaches.refl fun m m' h ↦ ?_
    simp only [cancelEscrow, bind_eq_ok] at h
    obtain ⟨id, -, -, -, h⟩ := h
    exact hsend h

/-- The commands of the client are runs of the machine, if those on the other chain are. -/
theorem within_agents
    (h : ∀ config key client, solana config key = .ok client → client.Within (Machine.Reaches D))
    (command : Commands) :
    (SessionEvent.execute (agents C D signer tx solana) command).Within (Machine.Reaches D) := by
  intro config key client hclient
  rw [Agents.build] at hclient
  split at hclient
  · simp only [agents, bind_eq_ok] at hclient
    obtain ⟨agent, -, recipient, -, hclient⟩ := hclient
    obtain rfl := Except.ok.inj hclient
    exact within_toAgent recipient
  · exact h config key client hclient

theorem build_agents_some {config : ChainConfig} (hchain : config.chain = .ethereum) {key : Str}
    {client : Agent Machine} :
    (agents C D signer tx solana).build config (some key) = .ok client ↔
      ∃ agent wallet, EthereumAgent.new C signer config = .ok agent ∧ signer key = .ok wallet ∧
        client = agent.toAgent C D (some wallet) tx := by
  simp only [Agents.build, hchain, agents, bind_eq_ok, mapError_eq_ok, Except.ok.injEq]
  constructor
  · rintro ⟨agent, hagent, _, ⟨wallet, hwallet, rfl⟩, rfl⟩
    exact ⟨agent, wallet, hagent, hwallet, rfl⟩
  · rintro ⟨agent, wallet, hagent, hwallet, rfl⟩
    exact ⟨agent, hagent, _, ⟨wallet, hwallet, rfl⟩, rfl⟩

theorem build_agents_none {config : ChainConfig} (hchain : config.chain = .ethereum)
    {client : Agent Machine} :
    (agents C D signer tx solana).build config none = .ok client ↔
      ∃ agent, EthereumAgent.new C signer config = .ok agent ∧
        client = agent.toAgent C D none tx := by
  simp only [Agents.build, hchain, agents, bind_eq_ok, Except.ok.injEq]
  constructor
  · rintro ⟨agent, hagent, _, rfl, rfl⟩
    exact ⟨agent, hagent, rfl⟩
  · rintro ⟨agent, hagent, rfl⟩
    exact ⟨agent, hagent, _, rfl, rfl⟩

end EthereumAgent

/-! ## The agent id -/

theorem length_le_add_stripHexPrefix (s : Str) : s.length ≤ (stripHexPrefix s).length + 2 := by
  have hstrip (p : Str) (hp : p.length = 2) : s.length ≤ ((stripPrefix p s).getD s).length + 2 := by
    rw [stripPrefix]
    split
    · rw [Option.getD_some, List.length_drop]
      omega
    · exact Nat.le_add_right _ _
  rw [stripHexPrefix]
  cases hp : stripPrefix ['0', 'x'] s with
  | none => exact hstrip ['0', 'X'] rfl
  | some t =>
    have hlen := hstrip ['0', 'x'] rfl
    rw [hp] at hlen
    exact hlen

theorem strLen_le_length (s : Str) : strLen s ≤ 4 * s.length := by
  induction s with
  | nil => exact le_rfl
  | cons c s ih =>
    have hc := c.utf8Size_le_four
    rw [strLen] at ih ⊢
    rw [List.map_cons, List.sum_cons, List.length_cons]
    omega

theorem EthereumAgent.exists_forChain {C : Codecs} (hC : C.Standard) {s : Str}
    {a : Ethereum.Address} (h : parseAddress C s = .ok a) :
    ∃ id, ID.forChain C .ethereum s = .ok id := by
  have htext := (parseAddress_eq_ok hC).mp h
  have hspells : Chain.ethereum.Spells s (Ethereum.addressBytes a) := htext
  have hlen : (stripHexPrefix s).length = 40 := by
    have hmap := congrArg List.length htext
    rw [List.length_map, Hex.length_encode, Ethereum.addressBytes, length_toBE] at hmap
    exact hmap
  have hshort : strLen s ≤ maxIdLen := by
    have hle := length_le_add_stripHexPrefix s
    have hle' := strLen_le_length s
    rw [maxIdLen]
    omega
  refine ⟨_, (ID.forChain_eq_ok hC).mpr ⟨?_, Ethereum.addressBytes a, ?_, ?_, rfl⟩⟩
  · rw [trim_eq_self hspells.not_isWhitespace]
    exact hshort
  · exact List.ne_nil_of_length_pos (by rw [Ethereum.addressBytes, length_toBE]; norm_num)
  · rw [trim_eq_self hspells.not_isWhitespace]
    exact hspells

theorem EthereumCreation.metadata_params {C : Codecs} (x : EthereumCreation C) :
    x.metadata.params = x.params := by
  obtain ⟨-, -, -, -, hmetadata, -⟩ := x.escrow_eq
  rw [hmetadata]

theorem EthereumCreation.exists_input {C : Codecs} (hC : C.Standard) (x : EthereumCreation C)
    {P : Process} {fromStr : Str → Except String Condition} {k : Condition}
    (hcond : x.params.hasConditions = true)
    (h : Escrow.fromMetadata P fromStr x.metadata = .ok (x.metadata.escrow k)) :
    ∃ input, releaseProofInput C P fromStr x.metadata = .ok (some input) ∧
      input.escrow = x.metadata.escrow k := by
  obtain ⟨id, hid⟩ := EthereumAgent.exists_forChain hC x.escrowAddress_eq
  rw [← x.chain_eq, ← x.metadata_params] at hid
  exact ⟨_, releaseProofInput_eq_ok.mpr ⟨x.metadata_params ▸ hcond, id, _, hid, h, rfl⟩, rfl⟩

theorem EthereumCreation.condition_eq_map {C : Codecs} (x : EthereumCreation C) {k : Condition}
    {input : ProofInput} (hescrow : input.escrow = x.metadata.escrow k)
    (hk : x.condition = some (k.commitment C.toCrates)) :
    x.condition = input.escrow.condition.map fun k ↦ k.commitment C.toCrates := by
  rw [hescrow, hk]
  rfl

/-! ## The creation -/

theorem EthereumCreation.id_eq {C : Codecs} (x : EthereumCreation C) :
    x.id = x.before.nextEscrowId + 1 := by
  obtain ⟨_, _, -, -, hcreate, -⟩ := EthereumAgent.createEscrow_eq_ok.mp x.created
  obtain ⟨-, -, -, -, -, -, hafter, -⟩ := Ethereum.createEscrow_eq_ok.mp hcreate
  rw [id, hafter, Ethereum.Storage.issue_nextEscrowId]

theorem EthereumCreation.action_eq {C : Codecs} (x : EthereumCreation C)
    {action : ℕ → Ethereum.Action}
    (h : x.agent.createTransaction C x.params x.condition = .ok action) :
    action x.moment = x.action := by
  obtain ⟨recipient, hrecipient, -, -, -, hescrow⟩ := x.escrow_eq
  simp only [EthereumAgent.createTransaction, bind_eq_ok, EthereumAgent.amount_eq_ok] at h
  obtain ⟨recipient', hrecipient', value, ⟨-, rfl⟩, haction⟩ := h
  obtain rfl := Except.ok.inj (hrecipient.symm.trans hrecipient')
  obtain rfl := Except.ok.inj haction
  rw [EthereumCreation.action, hescrow]

section

variable {T : CommandLine} {D : Ethereum.Deployment}
  {signer : Str → Except String Ethereum.Address} {tx : Submission}
  {solana : ChainConfig → Option Str → Except ClientError (Agent Machine)}
  {S S₁ : Session Machine} {params : EscrowParams}

/-- What the command `create` does is a creation. -/
theorem exists_creation (hsigner : ∀ key a, signer key = .ok a → a ≠ D.self ∧ a ≠ 0)
    (hidle : (S.chain.run D tx.before).Idle)
    (hparams : loadEscrowData S.process T.params.fromStr S.process.escrowParamsPath = .ok params)
    (hchain : params.chainConfig.chain = .ethereum)
    (h : T.execute (EthereumAgent.agents T.codecs D signer tx solana) .create S = (.ok (), S₁)) :
    ∃ x : EthereumCreation T.codecs, x.params = params ∧ x.signer = signer ∧
      releaseCondition T.codecs.toCrates S.process T.conditions.fromStr params = .ok x.condition ∧
      x.MadeIn D (S.chain.run D tx.before) ∧
      saveEscrowData S.process T.writer T.metadata (fun m ↦ .ok m.toJson)
        S.process.escrowMetadataPath x.metadata = .ok S₁.process ∧
      S₁.chain = (S.chain.run D tx.before).step D x.action := by
  obtain ⟨params', client, condition, metadata, chain, P, hparams', hclient, hcondition, hcreate,
    hsave, rfl⟩ := CommandLine.create_eq_ok.mp h
  obtain rfl := Except.ok.inj (hparams'.symm.trans hparams)
  obtain ⟨agent, hagent, rfl⟩ := (EthereumAgent.build_agents_none hchain).mp hclient
  obtain ⟨action, s, haction, hself, -, hcreated, rfl⟩ :=
    EthereumAgent.submitCreate_eq_ok.mp hcreate
  have hsender : ∃ key, signer key = .ok agent.sender := by
    simp only [EthereumAgent.new, bind_eq_ok, mapError_eq_ok] at hagent
    obtain ⟨a, -, sender, hsender, hagent⟩ := hagent
    obtain rfl := Except.ok.inj hagent
    exact ⟨_, hsender⟩
  obtain ⟨key, hkey⟩ := hsender
  let x : EthereumCreation T.codecs :=
    { signer := signer
      params := params'
      chain_eq := hchain
      agent := agent
      agent_eq := hagent
      block := (S.chain.run D tx.before).block
      moment := tx.included.moment
      condition := condition
      before := (S.chain.run D tx.before).world.storage
      metadata := metadata
      after := s
      created := hcreated }
  refine ⟨x, rfl, rfl, hcondition, ⟨hself, hsigner key _ hkey, hidle, rfl, rfl⟩, hsave, ?_⟩
  rw [← x.action_eq haction]

/-- A release by the command `finish` is one by the agent of the creation, with the wallet and the
proof. -/
theorem EthereumCreation.finish_eq_ok (x : EthereumCreation T.codecs) {S S' : Session Machine}
    {key : Str} :
    T.finish (EthereumAgent.agents T.codecs D x.signer tx solana) key x.metadata S = (.ok (), S') ↔
      ∃ wallet proof m', x.signer key = .ok wallet ∧
        releaseProof T.codecs S.process T.conditions.fromStr T.zkVm x.metadata = .ok proof ∧
        x.agent.finishEscrow D (some wallet) tx x.metadata proof S.chain = .ok m' ∧
        S' = ⟨S.process, m'⟩ := by
  rw [CommandLine.finish_eq_ok]
  simp only [x.metadata_params, EthereumAgent.build_agents_some x.chain_eq]
  constructor
  · rintro ⟨client, proof, m', ⟨agent, wallet, hagent, hwallet, rfl⟩, hproof, hfinish, rfl⟩
    obtain rfl := Except.ok.inj (x.agent_eq.symm.trans hagent)
    exact ⟨wallet, proof, m', hwallet, hproof, Effect.update_eq_ok.mp hfinish, rfl⟩
  · rintro ⟨wallet, proof, m', hwallet, hproof, hfinish, rfl⟩
    exact ⟨_, proof, m', ⟨x.agent, wallet, x.agent_eq, hwallet, rfl⟩, hproof,
      Effect.update_eq_ok.mpr hfinish, rfl⟩

theorem EthereumCreation.cancel_eq_ok (x : EthereumCreation T.codecs) {S S' : Session Machine} :
    CommandLine.cancel (EthereumAgent.agents T.codecs D x.signer tx solana) x.metadata S
        = (.ok (), S') ↔
      ∃ m', x.agent.cancelEscrow D tx x.metadata S.chain = .ok m' ∧ S' = ⟨S.process, m'⟩ := by
  rw [CommandLine.cancel_eq_ok]
  simp only [x.metadata_params, EthereumAgent.build_agents_none x.chain_eq]
  constructor
  · rintro ⟨client, m', ⟨agent, hagent, rfl⟩, hcancel, rfl⟩
    obtain rfl := Except.ok.inj (x.agent_eq.symm.trans hagent)
    exact ⟨m', Effect.update_eq_ok.mp hcancel, rfl⟩
  · rintro ⟨m', hcancel, rfl⟩
    exact ⟨_, m', ⟨x.agent, x.agent_eq, rfl⟩, Effect.update_eq_ok.mpr hcancel, rfl⟩

end

/-! ## The settlement -/

section

variable {T : CommandLine} {x : EthereumCreation T.codecs} {D : Ethereum.Deployment}
  {forced block : ℕ} {actions later : List Ethereum.Action} {tx : Submission}
  {solana : ChainConfig → Option Str → Except ClientError (Agent Machine)} {S : Session Machine}
  (h : x.MadeIn D ((Machine.init forced block).run D actions))
  (hsigner : ∀ key a, x.signer key = .ok a → a ≠ D.self ∧ a ≠ 0)
  (hchain : S.chain = (Machine.init forced block).run D (actions ++ x.action :: later))
  (hidle : S.chain.Idle)

/-- The escrow of the creation is settled by one payout of its amount: to the recipient, or to the
sender if it could be cancelled by then. -/
def EthereumCreation.SettledIn {C : Codecs} (x : EthereumCreation C) (m : Machine) : Prop :=
  m.world.storage.escrows x.id = x.escrow.settle ∧ ∃ p, payouts x.id m.world.log = [p] ∧
    (p.transfer = some ⟨x.escrow.recipient, x.escrow.amount⟩ ∨
      p.transfer = some ⟨x.escrow.sender, x.escrow.amount⟩ ∧
        x.escrow.cancelAfter ≠ 0 ∧ x.escrow.cancelAfter.toNat ≤ m.block)

/-- The release is due: the key is the recipient's, the time has come, and the escrow can be paid
out. -/
structure EthereumCreation.Due {C : Codecs} (x : EthereumCreation C) (tx : Submission)
    (m : Machine) (key : Str) : Prop where
  wallet : x.signer key = .ok x.escrow.recipient
  unsettled : (m.world.storage.escrows x.id).settled = false
  time : x.escrow.finishAfter.toNat ≤ m.block
  accepts : tx.estimate.accepts = true

/-- The release under condition `k` can be proved: the condition is satisfied, and the contract has
recorded what the parameters say. -/
structure EthereumCreation.Provable {C : Codecs} (x : EthereumCreation C) (k : Condition) :
    Prop where
  satisfied : k.Satisfied C.toCrates
  native : x.params.asset.IsNative C.toCrates
  sender : x.params.sender.toBytes C.toCrates = .ok (Ethereum.addressBytes x.agent.sender)
  recipient : x.params.recipient.identity.PlainHex

include h hchain hidle

theorem EthereumCreation.cancel_iff :
    (CommandLine.cancel (EthereumAgent.agents T.codecs D x.signer tx solana) x.metadata S).1
        = .ok () ↔
      (S.chain.world.storage.escrows x.id).settled = false ∧ x.escrow.cancelAfter ≠ 0 ∧
        x.escrow.cancelAfter.toNat ≤ S.chain.block ∧ tx.estimate.accepts = true := by
  rw [Effect.fst_eq]
  simp only [x.cancel_eq_ok]
  rw [hchain] at hidle ⊢
  rw [← h.cancels_iff hidle]
  constructor
  · rintro ⟨_, m', hcancel, -⟩
    exact ⟨m', hcancel⟩
  · rintro ⟨m', hcancel⟩
    exact ⟨_, m', hcancel, rfl⟩

theorem EthereumCreation.settledIn_of_cancel {S' : Session Machine}
    (hcancel : CommandLine.cancel (EthereumAgent.agents T.codecs D x.signer tx solana) x.metadata S
      = (.ok (), S')) (hidle' : (S.chain.run D tx.before).Idle)
    (haccepts : tx.included.accepts = true) : x.SettledIn S'.chain := by
  obtain ⟨m', hcancel', rfl⟩ := x.cancel_eq_ok.mp hcancel
  rw [hchain] at hidle hidle' hcancel'
  exact h.settled_of_unproved hidle (.inl hcancel') hidle' haccepts

include hsigner

theorem EthereumCreation.finish_unconditioned_iff (hcond : x.params.hasConditions = false)
    (hnone : x.condition = none) {key : Str} :
    (T.finish (EthereumAgent.agents T.codecs D x.signer tx solana) key x.metadata S).1 = .ok () ↔
      x.Due tx S.chain key := by
  obtain ⟨_, -, -, -, -, hescrow⟩ := x.escrow_eq
  have hproof : releaseProof T.codecs S.process T.conditions.fromStr T.zkVm x.metadata = .ok none :=
    releaseProof_of_unconditioned (x.metadata_params ▸ hcond)
  have hzero : x.escrow.conditionId = 0 := by
    rw [hescrow, hnone]
    exact show b256 (.zero 32) = 0 by decide
  rw [Effect.fst_eq]
  simp only [x.finish_eq_ok, hproof]
  rw [hchain] at hidle ⊢
  constructor
  · rintro ⟨_, wallet, proof, m', hwallet, hnone', hfinish, -⟩
    obtain rfl := Except.ok.inj hnone'
    obtain ⟨rfl, -, hunsettled, htime, haccepts⟩ :=
      (h.finishes_unproved_iff (hsigner key wallet hwallet).1 hidle).mp ⟨m', hfinish⟩
    exact ⟨hwallet, hunsettled, htime, haccepts⟩
  · rintro ⟨hwallet, hunsettled, htime, haccepts⟩
    obtain ⟨m', hfinish⟩ := (h.finishes_unproved_iff (hsigner key _ hwallet).1 hidle).mpr
      ⟨rfl, hzero, hunsettled, htime, haccepts⟩
    exact ⟨_, _, none, m', hwallet, rfl, hfinish, rfl⟩

theorem EthereumCreation.settledIn_of_finish_unconditioned
    (hcond : x.params.hasConditions = false) {key : Str} {S' : Session Machine}
    (hfinish : T.finish (EthereumAgent.agents T.codecs D x.signer tx solana) key x.metadata S
      = (.ok (), S')) (hidle' : (S.chain.run D tx.before).Idle)
    (haccepts : tx.included.accepts = true) : x.SettledIn S'.chain := by
  have hunproved : releaseProof T.codecs S.process T.conditions.fromStr T.zkVm x.metadata
      = .ok none := releaseProof_of_unconditioned (x.metadata_params ▸ hcond)
  obtain ⟨wallet, proof, m', hwallet, hproof, hfinish', rfl⟩ := x.finish_eq_ok.mp hfinish
  obtain rfl := Except.ok.inj (hunproved.symm.trans hproof)
  rw [hchain] at hidle hidle' hfinish'
  exact h.settled_of_unproved hidle (.inr ⟨wallet, (hsigner key wallet hwallet).1, hfinish'⟩) hidle'
    haccepts

section

variable {k : Condition} {input : ProofInput} (hC : T.codecs.Standard)
  (hZ : T.zkVm.Serves T.codecs.toCrates fun receiptSeal journal ↦
    ∀ moment, D.verify moment receiptSeal D.imageId (D.sha256 journal) = true)
  (hinput : releaseProofInput T.codecs S.process T.conditions.fromStr x.metadata = .ok (some input))
  (hescrow : input.escrow = x.metadata.escrow k) (hx : input.Portable)
  (hk : x.condition = some (k.commitment T.codecs.toCrates)) (hne : x.condition ≠ some (.zero 32))

include hC hZ hinput hescrow hx hk hne

theorem EthereumCreation.finish_conditioned_iff {key : Str} :
    (T.finish (EthereumAgent.agents T.codecs D x.signer tx solana) key x.metadata S).1 = .ok () ↔
      x.Due tx S.chain key ∧ x.Provable k := by
  have hcond := x.condition_eq_map hescrow hk
  have hsome {proof : Option ReleaseProof}
      (hproof : releaseProof T.codecs S.process T.conditions.fromStr T.zkVm x.metadata
        = .ok proof) : ∃ r, proof = some r := by
    simp only [releaseProof, hinput, Except.mapError, ok_bind, bind_eq_ok] at hproof
    obtain ⟨_, -, receiptSeal, -, hproof⟩ := hproof
    exact ⟨_, (Except.ok.inj hproof).symm⟩
  rw [Effect.fst_eq]
  simp only [x.finish_eq_ok]
  rw [hchain] at hidle ⊢
  constructor
  · rintro ⟨_, wallet, proof, m', hwallet, hproof, hfinish, -⟩
    obtain ⟨r, rfl⟩ := hsome hproof
    obtain ⟨hmet, rfl, hunsettled, htime, haccepts, hnative, hsender, hrecipient⟩ :=
      (h.finishes_proved_iff hC hZ hinput hx hcond hne (hsigner key wallet hwallet).1 hidle).mp
        ⟨r, m', hproof, hfinish⟩
    exact ⟨⟨hwallet, hunsettled, htime, haccepts⟩,
      hmet k (by rw [hescrow]; rfl), hnative, hsender, hrecipient⟩
  · rintro ⟨⟨hwallet, hunsettled, htime, haccepts⟩, hmet, hnative, hsender, hrecipient⟩
    have hmet' (k' : Condition) (hk' : input.escrow.condition = some k') :
        k'.Satisfied T.codecs.toCrates := by
      rw [hescrow] at hk'
      exact Option.some.inj hk' ▸ hmet
    obtain ⟨r, m', hproof, hfinish⟩ :=
      (h.finishes_proved_iff hC hZ hinput hx hcond hne (hsigner key _ hwallet).1 hidle).mpr
        ⟨hmet', rfl, hunsettled, htime, haccepts, hnative, hsender, hrecipient⟩
    exact ⟨_, _, some r, m', hwallet, hproof, hfinish, rfl⟩

theorem EthereumCreation.settledIn_of_finish_conditioned {key : Str} {S' : Session Machine}
    (hfinish : T.finish (EthereumAgent.agents T.codecs D x.signer tx solana) key x.metadata S
      = (.ok (), S')) (hidle' : (S.chain.run D tx.before).Idle)
    (haccepts : tx.included.accepts = true) : x.SettledIn S'.chain := by
  have hcond := x.condition_eq_map hescrow hk
  obtain ⟨wallet, proof, m', hwallet, hproof, hfinish', rfl⟩ := x.finish_eq_ok.mp hfinish
  have hself := (hsigner key wallet hwallet).1
  rw [hchain] at hidle hidle' hfinish'
  cases proof with
  | none => exact h.settled_of_unproved hidle (.inr ⟨wallet, hself, hfinish'⟩) hidle' haccepts
  | some r =>
    exact h.settled_of_proved hC hZ hinput hx hcond hne hself hproof hidle hfinish' hidle' haccepts

end

end

/-! ## A session -/

/-- How commands of the agents `A` settle the escrow in the session `S`, when its condition is the
one in the conditions file of `P`. A release must be due and, under conditions, it must be provable;
a refund must be enabled, its time must have come, and the escrow must not be settled. Either is one
payout of the amount. -/
structure EthereumCreation.SettledByCommands {T : CommandLine} (x : EthereumCreation T.codecs)
    (D : Ethereum.Deployment) (P : Process) (tx : Submission) (A : Agents Machine)
    (S : Session Machine) : Prop where
  finish : ∀ key, (T.execute A (.finish key) S).1 = .ok () ↔ x.Due tx S.chain key ∧
    (x.params.hasConditions = true → ∃ k,
      loadEscrowData P T.conditions.fromStr P.escrowConditionsPath = .ok k ∧ x.Provable k)
  cancel : (T.execute A .cancel S).1 = .ok () ↔
    (S.chain.world.storage.escrows x.id).settled = false ∧ x.escrow.cancelAfter ≠ 0 ∧
      x.escrow.cancelAfter.toNat ≤ S.chain.block ∧ tx.estimate.accepts = true
  payout : ∀ command S', (command = .cancel ∨ ∃ key, command = .finish key) →
    T.execute A command S = (.ok (), S') → (S.chain.run D tx.before).Idle →
    tx.included.accepts = true → x.SettledIn S'.chain

/-- Where the metadata are in their file, and the condition that was committed to is in its own. -/
theorem EthereumCreation.settledByCommands {T : CommandLine} {x : EthereumCreation T.codecs}
    {D : Ethereum.Deployment} {forced block : ℕ} {actions later : List Ethereum.Action}
    {solana : ChainConfig → Option Str → Except ClientError (Agent Machine)} {P : Process}
    {S : Session Machine} (hC : T.codecs.Standard)
    (hZ : T.zkVm.Serves T.codecs.toCrates fun receiptSeal journal ↦
      ∀ moment, D.verify moment receiptSeal D.imageId (D.sha256 journal) = true)
    (h : x.MadeIn D ((Machine.init forced block).run D actions))
    (hsigner : ∀ key a, x.signer key = .ok a → a ≠ D.self ∧ a ≠ 0)
    (hchain : S.chain = (Machine.init forced block).run D (actions ++ x.action :: later))
    (hidle : S.chain.Idle)
    (hload : loadEscrowData S.process T.metadata.fromStr S.process.escrowMetadataPath
      = .ok x.metadata)
    (hcond : x.params.hasConditions = true → ∃ k,
      loadEscrowData P T.conditions.fromStr P.escrowConditionsPath = .ok k ∧
      x.condition = some (k.commitment T.codecs.toCrates) ∧
      Escrow.fromMetadata S.process T.conditions.fromStr x.metadata = .ok (x.metadata.escrow k))
    (hnone : x.params.hasConditions = false → x.condition = none)
    (hne : x.condition ≠ some (.zero 32))
    (hx : ∀ input, releaseProofInput T.codecs S.process T.conditions.fromStr x.metadata
      = .ok (some input) → input.Portable) (tx : Submission) :
    x.SettledByCommands D P tx (EthereumAgent.agents T.codecs D x.signer tx solana) S := by
  obtain ⟨hfinish, hcancel⟩ := CommandLine.execute_of_metadata
    (A := EthereumAgent.agents T.codecs D x.signer tx solana) hload
  have hboth (key : Str) :
      ((T.finish (EthereumAgent.agents T.codecs D x.signer tx solana) key x.metadata S).1 = .ok () ↔
        x.Due tx S.chain key ∧ (x.params.hasConditions = true → ∃ k,
          loadEscrowData P T.conditions.fromStr P.escrowConditionsPath = .ok k ∧ x.Provable k)) ∧
      ∀ S', T.finish (EthereumAgent.agents T.codecs D x.signer tx solana) key x.metadata S
          = (.ok (), S') → (S.chain.run D tx.before).Idle → tx.included.accepts = true →
        x.SettledIn S'.chain := by
    cases hhas : x.params.hasConditions with
    | false =>
      rw [x.finish_unconditioned_iff h hsigner hchain hidle hhas (hnone hhas)]
      exact ⟨(and_iff_left fun hfalse ↦ absurd hfalse Bool.false_ne_true).symm,
        fun S' ↦ x.settledIn_of_finish_unconditioned h hsigner hchain hidle hhas⟩
    | true =>
      obtain ⟨k, hk, hcommit, hescrow⟩ := hcond hhas
      obtain ⟨input, hinput, hinput'⟩ := x.exists_input hC hhas hescrow
      have hportable := hx input hinput
      rw [x.finish_conditioned_iff h hsigner hchain hidle hC hZ hinput hinput' hportable hcommit
        hne]
      refine ⟨and_congr_right' ?_, fun S' ↦ x.settledIn_of_finish_conditioned h hsigner hchain hidle
        hC hZ hinput hinput' hportable hcommit hne⟩
      constructor
      · exact fun hprovable _ ↦ ⟨k, hk, hprovable⟩
      · intro hprovable
        obtain ⟨k', hk', hprovable⟩ := hprovable rfl
        obtain rfl := Except.ok.inj (hk.symm.trans hk')
        exact hprovable
  constructor
  · intro key
    rw [hfinish]
    exact (hboth key).1
  · rw [hcancel]
    exact x.cancel_iff h hchain hidle
  · rintro command S' (rfl | ⟨key, rfl⟩) hsent hidle' haccepts
    · rw [hcancel] at hsent
      exact x.settledIn_of_cancel h hchain hidle hsent hidle' haccepts
    · rw [hfinish] at hsent
      exact (hboth key).2 S' hsent hidle' haccepts

/-- **From the command that creates an escrow to the one that settles it.** Let `create` succeed on
parameters for Ethereum, with a conditions file that is its own expansion, and with keys of wallets
that are neither the contract nor zero. If no string of the metadata holds the start of a reference
and the commitment is not zero, then after any events that spare both files and move the contract as
its callers can, outside all calls and while the proof input is portable, `finish` and `cancel`
settle the escrow as they should. -/
theorem commands_on_ethereum {T : CommandLine} (hC : T.codecs.Standard)
    (hparse : ∀ n, T.parseBytes (Decimal.numeral n) = some n) {D : Ethereum.Deployment}
    (hZ : T.zkVm.Serves T.codecs.toCrates fun receiptSeal journal ↦
      ∀ moment, D.verify moment receiptSeal D.imageId (D.sha256 journal) = true)
    {signer : Str → Except String Ethereum.Address}
    (hsigner : ∀ key a, signer key = .ok a → a ≠ D.self ∧ a ≠ 0)
    {solana : ChainConfig → Option Str → Except ClientError (Agent Machine)} {tx : Submission}
    {S S₁ : Session Machine} {forced block : ℕ} {actions : List Ethereum.Action}
    (hS : S.chain = (Machine.init forced block).run D actions)
    (hidle : (S.chain.run D tx.before).Idle) {params : EscrowParams}
    (hparams : loadEscrowData S.process T.params.fromStr S.process.escrowParamsPath = .ok params)
    (hchain : params.chainConfig.chain = .ethereum) (hexpand : SelfExpanding S.process)
    (hcreate : T.execute (EthereumAgent.agents T.codecs D signer tx solana) .create S
      = (.ok (), S₁)) :
    ∃ x : EthereumCreation T.codecs, x.params = params ∧ x.signer = signer ∧
      x.MadeIn D (S.chain.run D tx.before) ∧
      releaseCondition T.codecs.toCrates S.process T.conditions.fromStr params = .ok x.condition ∧
      (T.json.Inverts x.metadata.toJson → (∀ s ∈ x.metadata.texts, ¬['$', '{'] <:+: s) →
        x.condition ≠ some (.zero 32) → ∀ events,
        Along (Session.step T) (fun S e ↦ e.Spares S.process) S₁ events →
        (∀ e ∈ events, e.Within (Machine.Reaches D)) → (S₁.run T events).chain.Idle →
        (∀ input, releaseProofInput T.codecs (S₁.run T events).process T.conditions.fromStr
          x.metadata = .ok (some input) → input.Portable) →
        ∀ tx solana, x.SettledByCommands D S.process tx
          (EthereumAgent.agents T.codecs D signer tx solana) (S₁.run T events)) := by
  obtain ⟨x, rfl, rfl, hcondition, h, hsave, hS₁⟩ :=
    exists_creation hsigner hidle hparams hchain hcreate
  refine ⟨x, rfl, rfl, h, hcondition, ?_⟩
  intro hJ hno hne events hspares hwithin hidle₂ hportable tx' solana'
  obtain ⟨P, m⟩ := S₁
  have hbefore : S.chain.run D tx.before =
      (Machine.init forced block).run D (actions ++ tx.before) := by
    rw [hS, Machine.run, Machine.run, Machine.run, run_append]
  rw [hbefore] at h hS₁
  -- The chain has moved on from the creation, and the files are as they were.
  obtain ⟨later, hlater⟩ := CommandLine.chain_run (T := T) Machine.Reaches.refl
    (fun _ _ _ ↦ Machine.Reaches.trans) hwithin
  have hchain₂ : (Session.run T ⟨P, m⟩ events).chain = (Machine.init forced block).run D
      (actions ++ tx.before ++ x.action :: later) := by
    rw [hlater, Machine.run, Machine.run, run_append]
    exact congrArg (Foundation.run (Machine.step D) · later) hS₁
  obtain ⟨hmetadata, hconditions⟩ := CommandLine.sameFile_of_created hsave hspares
  refine x.settledByCommands hC hZ h hsigner hchain₂ hidle₂
    (CommandLine.load_metadata hparse hsave hJ hno hmetadata)
    (CommandLine.fromMetadata_of_same hcondition x.metadata_params hexpand hconditions)
    (fun hhas ↦ ?_) hne hportable tx'
  have hnone : releaseCondition T.codecs.toCrates S.process T.conditions.fromStr x.params
      = .ok none := if_pos (by rw [hhas]; exact Bool.false_ne_true)
  exact Except.ok.inj (hcondition.symm.trans hnone)

/-! ## A sample session -/

namespace EthereumCreation

/-- The key `r` is the recipient's, and every other key the sender's. -/
def sampleSigner (key : Str) : Except String Ethereum.Address :=
  .ok (if key = ['r'] then repeated 0xaa else repeated 0xbb)

theorem sampleSigner_ne (key : Str) (a : Ethereum.Address) (h : sampleSigner key = .ok a) :
    a ≠ sampleDeployment.self ∧ a ≠ 0 := by
  obtain rfl := Except.ok.inj h
  split <;> decide

/-- Nothing comes between a transaction and its estimate. -/
def sampleSubmission : Submission := ⟨⟨0, true⟩, [], ⟨0, true⟩⟩

/-- The agents of the sample, without one for the other chain. -/
def sampleAgents : Agents Machine :=
  EthereumAgent.agents .sample sampleDeployment sampleSigner sampleSubmission
    fun _ _ ↦ .error (.solana "" "")

theorem exists_create_sample : ∃ P,
    saveEscrowData .sessionSample .sample CommandLine.sample.metadata (fun m ↦ .ok m.toJson)
      Process.sessionSample.escrowMetadataPath .created = .ok P ∧
    CommandLine.sample.execute sampleAgents .create ⟨.sessionSample, Machine.init 0 0⟩ =
      (.ok (), ⟨P, (Machine.init 0 0).run sampleDeployment
        [(EthereumCreation.sample .native).action]⟩) := by
  let x := EthereumCreation.sample .native
  obtain ⟨P, hP⟩ : ∃ P, saveEscrowData .sessionSample .sample CommandLine.sample.metadata
      (fun m ↦ .ok m.toJson) Process.sessionSample.escrowMetadataPath x.metadata = .ok P := ⟨_, rfl⟩
  have hagent : EthereumAgent.new .sample sampleSigner x.params.chainConfig = .ok x.agent :=
    bind_eq_ok.mpr ⟨_, x.escrowAddress_eq, rfl⟩
  obtain ⟨recipient, hrecipient, hamount, -⟩ := x.escrow_eq
  obtain ⟨action, haction⟩ :
      ∃ action, x.agent.createTransaction .sample x.params x.condition = .ok action :=
    ⟨_, bind_eq_ok.mpr ⟨recipient, hrecipient, bind_eq_ok.mpr
      ⟨_, EthereumAgent.amount_eq_ok.mpr ⟨hamount, rfl⟩, rfl⟩⟩⟩
  have hlog : ((Machine.init 0 0).step sampleDeployment (action 0)).world.log ≠
      (Machine.init 0 0).world.log := by
    intro hempty
    have hmem := madeIn_sample.step.2
    rw [← x.action_eq haction] at hmem
    have hnil : (x.id, x.escrow) ∈ Ethereum.creations (Machine.init 0 0).world.log := hempty ▸ hmem
    exact List.not_mem_nil hnil
  have hclient : sampleAgents.build x.params.chainConfig none =
      .ok (x.agent.toAgent .sample sampleDeployment none sampleSubmission) :=
    (EthereumAgent.build_agents_none x.chain_eq).mpr ⟨x.agent, hagent, rfl⟩
  have hcreate : (x.agent.toAgent .sample sampleDeployment none sampleSubmission).createEscrow
      x.params x.condition (Machine.init 0 0) =
        (.ok x.metadata, (Machine.init 0 0).step sampleDeployment (action 0)) := by
    rw [EthereumAgent.createEscrow_toAgent]
    exact EthereumAgent.submitCreate_eq_ok.mpr
      ⟨action, x.after, haction, madeIn_sample.self, hlog, x.created, rfl⟩
  refine ⟨P, hP, CommandLine.create_eq_ok.mpr ⟨x.params, _, x.condition, x.metadata, _, P,
    CommandLine.loads_sample.1, hclient, CommandLine.releaseCondition_sample, hcreate, hP, ?_⟩⟩
  rw [Machine.run, Foundation.run, List.foldl_cons, List.foldl_nil, ← x.action_eq haction]
  rfl

theorem metadata_eq_created {x : EthereumCreation CommandLine.sample.codecs}
    (hparams : x.params = hexParams .native) (hbefore : x.before.nextEscrowId = 0) :
    x.metadata = .created ∧ x.id = 1 := by
  obtain ⟨_, -, -, -, hmetadata, -⟩ := x.escrow_eq
  have hid : x.id = 1 := by
    rw [x.id_eq, hbefore]
    rfl
  refine ⟨?_, hid⟩
  rw [hmetadata, hparams]
  change (⟨hexParams .native, .funded, some (UInt64.ofNat x.id.toNat)⟩ : EscrowMetadata) = .created
  rw [hid]
  rfl

theorem parties_of_sample {x : EthereumCreation CommandLine.sample.codecs}
    (hparams : x.params = hexParams .native) (hsigner : x.signer = sampleSigner) :
    x.agent.sender = repeated 0xbb ∧ x.escrow.recipient = repeated 0xaa ∧
      x.escrow.finishAfter = 0 := by
  obtain ⟨recipient, hrecipient, -, -, -, hescrow⟩ := x.escrow_eq
  have hagent := x.agent_eq
  have hwallet : EthereumAgent.parseAddress .sample ((hexParams .native).recipient.display .sample)
      = .ok (repeated 0xaa) := by decide
  rw [hparams] at hrecipient
  obtain rfl := Except.ok.inj (hwallet.symm.trans hrecipient)
  simp only [EthereumAgent.new, bind_eq_ok, mapError_eq_ok] at hagent
  obtain ⟨_, -, sender, hsender, hagent⟩ := hagent
  rw [hparams, hsigner] at hsender
  refine ⟨?_, by rw [hescrow], ?_⟩
  · rw [← Except.ok.inj hagent]
    exact (Except.ok.inj hsender).symm
  · rw [hescrow, hparams]
    rfl

theorem sampleInput_eq {P : Process} (hsave : saveEscrowData .sessionSample .sample
      CommandLine.sample.metadata (fun m ↦ .ok m.toJson)
      Process.sessionSample.escrowMetadataPath .created = .ok P) {input : ProofInput}
    (h : releaseProofInput .sample P CommandLine.sample.conditions.fromStr .created
      = .ok (some input)) : sampleInput .native = input := by
  obtain ⟨-, agentId, escrow, hforChain, hescrow, rfl⟩ := releaseProofInput_eq_ok.mp h
  have hagent : ID.forChain .sample .ethereum (List.replicate 40 'e')
      = .ok (.hex (List.replicate 40 'e')) := by decide
  have hspared : Along (Session.step .sample) (fun S e ↦ e.Spares S.process)
      (⟨P, ()⟩ : Session Unit) [] := trivial
  obtain ⟨-, hsame⟩ :=
    CommandLine.sameFile_of_created (S := ⟨.sessionSample, ()⟩) (T := .sample) hsave hspared
  have hparams : EscrowMetadata.created.params = hexParams .native := rfl
  obtain ⟨k, hk, -, hescrow'⟩ := CommandLine.fromMetadata_of_same (S := ⟨.sessionSample, ()⟩)
    CommandLine.releaseCondition_sample hparams CommandLine.loads_sample.2.2 hsame rfl
  obtain rfl := Except.ok.inj (CommandLine.loads_sample.2.1.symm.trans hk)
  obtain rfl := Except.ok.inj (hescrow'.symm.trans hescrow)
  obtain rfl := Except.ok.inj (hagent.symm.trans hforChain)
  rfl

theorem commands_on_ethereum_sample : ∃ S₁ S₂,
    CommandLine.sample.execute sampleAgents .create ⟨.sessionSample, Machine.init 0 0⟩
      = (.ok (), S₁) ∧
    CommandLine.sample.execute sampleAgents (.finish ['r'])
      (S₁.run .sample [.advance fun m ↦ m.run sampleDeployment [.roll 5]]) = (.ok (), S₂) ∧
    ∃ p, payouts 1 S₂.chain.world.log = [p] := by
  obtain ⟨P, hsave, hcreate⟩ := exists_create_sample
  obtain ⟨m, hm⟩ : ∃ m, (Machine.init 0 0).run sampleDeployment
      [(EthereumCreation.sample .native).action] = m := ⟨_, rfl⟩
  rw [hm] at hcreate
  have hlater : m.run sampleDeployment [.roll 5] = (Machine.init 0 0).run sampleDeployment
      [(EthereumCreation.sample .native).action, .roll 5] := by
    rw [← hm, Machine.run, Machine.run, Machine.run, ← run_append, List.singleton_append]
  obtain ⟨hload, hcondition, hexpand⟩ := CommandLine.loads_sample
  have hS : (⟨.sessionSample, Machine.init 0 0⟩ : Session Machine).chain =
      (Machine.init 0 0).run sampleDeployment [] := rfl
  have hidle : ((⟨.sessionSample, Machine.init 0 0⟩ : Session Machine).chain.run sampleDeployment
      sampleSubmission.before).Idle := rfl
  obtain ⟨x, hparams, hsigner, hmade, hrelease, hsettles⟩ :=
    commands_on_ethereum Codecs.standard_sample parseDecimal_numeral serves_sample sampleSigner_ne
      hS hidle hload rfl hexpand hcreate
  obtain ⟨hmetadata, hid⟩ := metadata_eq_created hparams (by rw [← hmade.storage]; rfl)
  have hidle₂ : (m.run sampleDeployment [.roll 5]).Idle := by
    rw [hlater]
    exact madeIn_sample.idle_roll 5
  have hportable (input : ProofInput) (hinput : releaseProofInput .sample P
      CommandLine.sample.conditions.fromStr x.metadata = .ok (some input)) : input.Portable := by
    rw [hmetadata] at hinput
    rw [← sampleInput_eq hsave hinput]
    exact portable_sampleInput
  have hne : x.condition ≠ some (.zero 32) := by
    rw [← Except.ok.inj (CommandLine.releaseCondition_sample.symm.trans hrelease)]
    exact condition_sample_ne
  have hsettled := hsettles (by rw [hmetadata]; exact JsonText.inverts_sessionSample.2.1)
    (by rw [hmetadata]; exact EscrowMetadata.noReference_created) hne
    [.advance fun m ↦ m.run sampleDeployment [.roll 5]] ⟨trivial, trivial⟩
    (List.forall_mem_singleton.mpr fun m ↦ m.reaches_run _) hidle₂ hportable sampleSubmission
    fun _ _ ↦ .error (.solana "" "")
  obtain ⟨hsender, hrecipient, hfinishAfter⟩ := parties_of_sample hparams hsigner
  have hdue : x.Due sampleSubmission (m.run sampleDeployment [.roll 5]) ['r'] := by
    refine ⟨?_, ?_, ?_, rfl⟩
    · rw [hsigner, hrecipient]
      rfl
    · rw [hlater, hid]
      decide +kernel
    · rw [hfinishAfter]
      exact Nat.zero_le _
  have hprovable : x.Provable Condition.sample := by
    refine ⟨Condition.satisfied_hashlock.mpr rfl, ?_, ?_, ?_⟩
    · rw [hparams]
      exact ⟨rfl, fun id hid ↦ absurd hid.symm (Option.some_ne_none id)⟩
    · rw [hparams, hsender]
      decide
    · rw [hparams]
      exact ⟨_, rfl, by decide⟩
  obtain ⟨S₂, hfinish⟩ := Effect.fst_eq.mp ((hsettled.finish ['r']).mpr
    ⟨hdue, fun _ ↦ ⟨_, hcondition, hprovable⟩⟩)
  obtain ⟨-, p, hp, -⟩ := hsettled.payout _ S₂ (.inr ⟨_, rfl⟩) hfinish hidle₂ rfl
  exact ⟨_, S₂, hcreate, hfinish, p, hid ▸ hp⟩

end EthereumCreation

end Zescrow
