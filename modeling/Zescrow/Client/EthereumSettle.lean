import Zescrow.Client.ReleaseProof
import Zescrow.Ethereum.Transaction

/-!
# Settling on Ethereum with the client

The client sends a transaction if it would take effect on the state it sees, and then waits for its
receipt without looking at what the transaction has done: other transactions may come first, and the
escrow may have been settled by one of them. What is certain is that the escrow is settled in the
end, and that the recipient has been paid unless the sender could have cancelled by then.

Whether the client gets that far depends on the whole way from the parameters to the contract: the
creation has recorded the parameters, the condition is satisfied, and the journal of the proof is
the one the contract expects.
-/

open Foundation

namespace Zescrow

open Ethereum (Encounter Machine FinishAllowed CancelAllowed EscrowDB payouts creations)

/-- What happens to a transaction that is sent: what its estimate meets, what comes before it, and
what it meets itself. -/
structure Submission where
  estimate : Encounter
  before : List Ethereum.Action
  included : Encounter

namespace EthereumAgent

/-- Reads the escrow id recorded at creation. -/
def escrowId (metadata : EscrowMetadata) (operation : String) : Except ClientError UInt64 :=
  metadata.escrowId.elim (.error (.ethereum operation "missing escrow_id")) .ok

/-- The recipient's wallet, if one is configured. -/
def recipientProvider (recipient : Option Ethereum.Address) :
    Except ClientError Ethereum.Address :=
  recipient.elim (.error (.ethereum "finishEscrow" "recipient wallet not configured")) .ok

/-- Sends a transaction and waits for its receipt. It is refused if its estimate reverts; whether it
has reverted itself is not looked at. -/
def send (D : Ethereum.Deployment) (signer : Ethereum.Address) (call : Ethereum.Call)
    (tx : Submission) (operation : String) (m : Machine) : Except ClientError Machine :=
  if (m.transact D signer call tx.estimate).world.log = m.world.log then
    .error (.ethereum operation "execution reverted")
  else .ok ((m.run D tx.before).transact D signer call tx.included)

/-- Releases an escrow on-chain. `recipient` is the address of the recipient's wallet, if one is
configured. The contract at another address than the agent's is not this one. -/
def finishEscrow (D : Ethereum.Deployment) (agent : EthereumAgent)
    (recipient : Option Ethereum.Address) (tx : Submission) (metadata : EscrowMetadata)
    (proof : Option ReleaseProof) (m : Machine) : Except ClientError Machine := do
  let id ← escrowId metadata "finishEscrow"
  let signer ← recipientProvider recipient
  -- Without a proof both are empty.
  let receiptSeal := proof.elim [] (·.receiptSeal)
  let journal := proof.elim [] (·.journal)
  ensure (agent.escrowAddress = D.self) (.ethereum "finishEscrow" "no such contract")
  send D signer (.finishEscrow (u256 id) receiptSeal journal) tx "finishEscrow" m

/-- Cancels an escrow on-chain. -/
def cancelEscrow (D : Ethereum.Deployment) (agent : EthereumAgent) (tx : Submission)
    (metadata : EscrowMetadata) (m : Machine) : Except ClientError Machine := do
  let id ← escrowId metadata "cancelEscrow"
  ensure (agent.escrowAddress = D.self) (.ethereum "cancelEscrow" "no such contract")
  send D agent.sender (.cancelEscrow (u256 id)) tx "cancelEscrow" m

end EthereumAgent

/-! ## What the agent sends -/

theorem EthereumAgent.send_eq_ok {D : Ethereum.Deployment} {signer : Ethereum.Address}
    {call : Ethereum.Call} {tx : Submission} {operation : String} {m m' : Machine} :
    send D signer call tx operation m = .ok m' ↔
      (m.transact D signer call tx.estimate).world.log ≠ m.world.log ∧
        m' = (m.run D tx.before).transact D signer call tx.included := by
  rw [send]
  split
  · next h => exact iff_of_false error_ne_ok fun h' ↦ h'.1 h
  · next h => rw [Except.ok.injEq, and_iff_right h, eq_comm]

theorem EthereumAgent.finishEscrow_eq_ok {D : Ethereum.Deployment} {agent : EthereumAgent}
    {wallet : Ethereum.Address} {tx : Submission} {metadata : EscrowMetadata}
    {proof : Option ReleaseProof} {m m' : Machine} (hself : agent.escrowAddress = D.self)
    {id : UInt64} (hid : metadata.escrowId = some id) :
    let call := .finishEscrow (u256 id) (proof.elim [] (·.receiptSeal)) (proof.elim [] (·.journal))
    agent.finishEscrow D (some wallet) tx metadata proof m = .ok m' ↔
      (m.transact D wallet call tx.estimate).world.log ≠ m.world.log ∧
        m' = (m.run D tx.before).transact D wallet call tx.included := by
  intro call
  rw [finishEscrow, escrowId, hid]
  simp only [Option.elim, recipientProvider, ok_bind, ensure, if_pos hself]
  exact send_eq_ok

theorem EthereumAgent.cancelEscrow_eq_ok {D : Ethereum.Deployment} {agent : EthereumAgent}
    {tx : Submission} {metadata : EscrowMetadata} {m m' : Machine}
    (hself : agent.escrowAddress = D.self) {id : UInt64} (hid : metadata.escrowId = some id) :
    let call := .cancelEscrow (u256 id)
    agent.cancelEscrow D tx metadata m = .ok m' ↔
      (m.transact D agent.sender call tx.estimate).world.log ≠ m.world.log ∧
        m' = (m.run D tx.before).transact D agent.sender call tx.included := by
  intro call
  rw [cancelEscrow, escrowId, hid]
  simp only [Option.elim, ok_bind, ensure, if_pos hself]
  exact send_eq_ok

/-! ## The escrow of a creation -/

/-- What the creation `x` finds is a contract outside all calls. -/
structure EthereumCreation.MadeIn {C : Codecs} (x : EthereumCreation C) (D : Ethereum.Deployment)
    (m : Machine) : Prop where
  self : x.agent.escrowAddress = D.self
  signer : x.agent.sender ≠ D.self ∧ x.agent.sender ≠ 0
  idle : m.Idle
  storage : m.world.storage = x.before
  block : m.block = x.block

namespace EthereumCreation

variable {C : Codecs} (x : EthereumCreation C)

/-- The id of the escrow. -/
def id : Ethereum.Word := x.after.nextEscrowId

/-- The transaction of the creation. -/
def action : Ethereum.Action :=
  .call x.escrow.sender x.escrow.amount x.moment (.createEscrow x.escrow.recipient
    x.escrow.finishAfter x.escrow.cancelAfter x.escrow.conditionId)

variable {x} {D : Ethereum.Deployment} {m : Machine}

/-- After the creation the contract is outside all calls and has logged the escrow. -/
theorem MadeIn.step (h : x.MadeIn D m) :
    (m.step D x.action).Idle ∧ (x.id, x.escrow) ∈ creations (m.step D x.action).world.log := by
  obtain ⟨recipient, hrecipient, hamount, hid, hmetadata, hescrow⟩ := x.escrow_eq
  obtain ⟨recipient', e, hrecipient', -, hcreate, -⟩ :=
    EthereumAgent.createEscrow_eq_ok.mp x.created
  obtain rfl := Except.ok.inj (hrecipient.symm.trans hrecipient')
  have hbegin : Ethereum.createEscrow ⟨x.escrow.sender, x.escrow.amount, m.block, x.moment⟩
      x.escrow.recipient x.escrow.finishAfter x.escrow.cancelAfter x.escrow.conditionId
      m.world.storage = .ok (x.after, e) := by
    rw [hescrow, h.block, h.storage]
    exact hcreate
  have hself : x.escrow.sender ≠ D.self := by
    rw [hescrow]
    exact h.signer.1
  have hstep : m.step D x.action = { m with worlds := m.worlds.set (m.world.afterCreate
      ⟨x.escrow.sender, x.escrow.amount, m.block, x.moment⟩ (.createEscrow x.escrow.recipient
        x.escrow.finishAfter x.escrow.cancelAfter x.escrow.conditionId) x.after e) } := by
    rw [action, Machine.step]
    unfold Machine.call
    rw [if_neg hself]
    simp only [hbegin]
  rw [hstep]
  refine ⟨h.idle, ?_⟩
  obtain ⟨-, -, -, -, -, -, hafter, rfl⟩ := Ethereum.createEscrow_eq_ok.mp hbegin
  change (x.id, x.escrow) ∈ creations (m.world.log ++ [_])
  rw [Ethereum.creations_append]
  refine List.mem_append_right _ (List.mem_singleton.mpr ?_)
  have hnew : x.escrow = Ethereum.newEscrow
      ⟨x.escrow.sender, x.escrow.amount, m.block, x.moment⟩ x.escrow.recipient
      x.escrow.finishAfter x.escrow.cancelAfter x.escrow.conditionId := by
    rw [hescrow]
    rfl
  have hnext : x.id = m.world.storage.nextEscrowId + 1 := by
    rw [id, hafter, Ethereum.Storage.issue_nextEscrowId]
  exact Prod.ext hnext hnew

section

variable {forced block : ℕ} {actions : List Ethereum.Action}

theorem MadeIn.mem_creations (h : x.MadeIn D ((Machine.init forced block).run D actions))
    (later : List Ethereum.Action) : (x.id, x.escrow) ∈
      creations ((Machine.init forced block).run D (actions ++ x.action :: later)).world.log := by
  obtain ⟨hidle, hmem⟩ := h.step
  rw [Machine.run, run_append]
  exact ((Machine.log_grows (D := D) hidle later).filterMap Ethereum.Entry.creation).subset hmem

theorem MadeIn.idle_roll (h : x.MadeIn D ((Machine.init forced block).run D actions)) (n : ℕ) :
    ((Machine.init forced block).run D (actions ++ [x.action, .roll n])).Idle := by
  rw [Machine.run, run_append]
  exact h.step.1.roll n

theorem exists_escrowId (x : EthereumCreation C) :
    ∃ id, x.metadata.escrowId = some id ∧ u256 id = x.id := by
  obtain ⟨-, -, -, hlt, hmetadata, -⟩ := x.escrow_eq
  refine ⟨UInt64.ofNat x.id.toNat, ?_, ?_⟩
  · rw [hmetadata]
    rfl
  · apply BitVec.eq_of_toNat_eq
    rw [toNat_u256]
    exact UInt64.toNat_ofNat_of_lt' hlt

/-- The client sends the finishing transaction exactly if the escrow as recorded allows the release,
is not settled and can be paid out. -/
theorem MadeIn.finishEscrow_eq_ok (h : x.MadeIn D ((Machine.init forced block).run D actions))
    {later : List Ethereum.Action} {wallet : Ethereum.Address} {tx : Submission}
    {proof : Option ReleaseProof} {m' : Machine} (hself : wallet ≠ D.self)
    (hidle : ((Machine.init forced block).run D (actions ++ x.action :: later)).Idle) :
    let m := (Machine.init forced block).run D (actions ++ x.action :: later)
    let receiptSeal := proof.elim [] (·.receiptSeal)
    let journal := proof.elim [] (·.journal)
    x.agent.finishEscrow D (some wallet) tx x.metadata proof m = .ok m' ↔
      (FinishAllowed D ⟨wallet, 0, m.block, tx.estimate.moment⟩ x.id receiptSeal journal x.escrow ∧
        (m.world.storage.escrows x.id).settled = false ∧ tx.estimate.accepts = true) ∧
      m' = (m.run D tx.before).transact D wallet (.finishEscrow x.id receiptSeal journal)
        tx.included := by
  intro m receiptSeal journal
  obtain ⟨id, hescrowId, hid⟩ := x.exists_escrowId
  refine (EthereumAgent.finishEscrow_eq_ok h.self hescrowId).trans ?_
  rw [hid]
  refine and_congr_left' ((Machine.estimate_iff hidle (h.mem_creations later) hself
    (.inr ⟨_, _, rfl⟩)).trans ?_)
  rw [Ethereum.permits_finish]

theorem MadeIn.cancelEscrow_eq_ok (h : x.MadeIn D ((Machine.init forced block).run D actions))
    {later : List Ethereum.Action} {tx : Submission} {m' : Machine}
    (hidle : ((Machine.init forced block).run D (actions ++ x.action :: later)).Idle) :
    let m := (Machine.init forced block).run D (actions ++ x.action :: later)
    x.agent.cancelEscrow D tx x.metadata m = .ok m' ↔
      (CancelAllowed ⟨x.agent.sender, 0, m.block, tx.estimate.moment⟩ x.escrow ∧
        (m.world.storage.escrows x.id).settled = false ∧ tx.estimate.accepts = true) ∧
      m' = (m.run D tx.before).transact D x.agent.sender (.cancelEscrow x.id) tx.included := by
  intro m
  obtain ⟨id, hescrowId, hid⟩ := x.exists_escrowId
  refine (EthereumAgent.cancelEscrow_eq_ok h.self hescrowId).trans ?_
  rw [hid]
  refine and_congr_left' ((Machine.estimate_iff hidle (h.mem_creations later) h.signer.1
    (.inl rfl)).trans ?_)
  rw [Ethereum.permits_cancel]

/-- A transaction that the record allowed when it was estimated, and allows when it is included,
leaves the escrow settled. -/
theorem MadeIn.settled (h : x.MadeIn D ((Machine.init forced block).run D actions))
    {later before : List Ethereum.Action} {signer : Ethereum.Address} (hself : signer ≠ D.self)
    {call : Ethereum.Call} (hcall : call.Settles x.id) {env : Encounter} :
    let m := (Machine.init forced block).run D (actions ++ x.action :: later)
    m.Idle → (m.run D before).Idle →
    (∀ n, m.block ≤ n → Ethereum.Permits D x.id x.escrow ⟨signer, 0, n, env.moment⟩ call) →
    env.accepts = true →
    let m' := (m.run D before).transact D signer call env
    m'.world.storage.escrows x.id = x.escrow.settle ∧ ∃ p, payouts x.id m'.world.log = [p] ∧
      (p.transfer = some ⟨x.escrow.recipient, x.escrow.amount⟩ ∨
        p.transfer = some ⟨x.escrow.sender, x.escrow.amount⟩ ∧
          x.escrow.cancelAfter ≠ 0 ∧ x.escrow.cancelAfter.toNat ≤ m'.block) := by
  intro m hidle hidle' hpermits haccepts
  have hrun : m.run D before =
      (Machine.init forced block).run D (actions ++ x.action :: later ++ before) := by
    rw [Machine.run, Machine.run, run_append]
  have hpermits' := hpermits _ (Machine.le_run_block D m before)
  have hmem := ((Machine.log_grows (D := D) hidle before).filterMap
    Ethereum.Entry.creation).subset (h.mem_creations later)
  rw [hrun] at hidle' hpermits' hmem ⊢
  exact Machine.transact_settled hidle' hmem hself hcall hpermits' haccepts

/-- The contract allows the release by a verified proof exactly if the wallet and the time are right
and the creation has recorded the parameters. -/
theorem MadeIn.allowed_iff (hC : C.Standard) (h : x.MadeIn D m)
    (p : Release C x.metadata x.condition) (hne : x.condition ≠ some (.zero 32))
    (hcond : x.condition ≠ none) {wallet : Ethereum.Address} {n moment : ℕ} {receiptSeal : Bytes}
    (hverify : D.verify moment receiptSeal D.imageId (D.sha256 p.journal) = true) :
    FinishAllowed D ⟨wallet, 0, n, moment⟩ x.id receiptSeal p.journal x.escrow ↔
      wallet = x.escrow.recipient ∧ x.escrow.finishAfter.toNat ≤ n ∧
        x.params.asset.IsNative C.toCrates ∧
        x.params.sender.toBytes C.toCrates = .ok (Ethereum.addressBytes x.agent.sender) ∧
        x.params.recipient.identity.PlainHex := by
  obtain ⟨recipient, -, -, -, -, hescrow⟩ := x.escrow_eq
  have hconditioned : x.escrow.conditionId ≠ 0 := by
    intro hzero
    rw [hescrow] at hzero
    have hzero' : x.condition.getD (.zero 32) = .zero 32 :=
      b256_inj.mp (hzero.trans (show (0 : Ethereum.Word) = b256 (.zero 32) by decide))
    cases hc : x.condition with
    | none => exact hcond hc
    | some c =>
      rw [hc] at hzero'
      exact hne (hc.trans (congrArg some hzero'))
  have haccepts := x.accepts_iff_recordedAs hC p
  rw [x.recordedAs_iff hC, Accepts, h.self] at haccepts
  constructor
  · intro hallowed
    exact ⟨hallowed.caller, hallowed.time, haccepts.mp (hallowed.proof hconditioned).1⟩
  · rintro ⟨hcaller, htime, hrecorded⟩
    refine ⟨?_, hcaller, ?_, htime, fun _ ↦ ⟨haccepts.mpr hrecorded, hverify⟩⟩
    · rw [hescrow]
      exact h.signer.2
    · rw [hescrow]

theorem exists_releaseProof_of_recordedAs (hC : C.Standard) {Z : ZkVm}
    {verify : Bytes → Bytes → Prop} (hZ : Z.Serves C.toCrates verify) {P : Process}
    {fromStr : Str → Except String Condition} {input : ProofInput}
    (hinput : releaseProofInput C P fromStr x.metadata = .ok (some input)) (hx : input.Portable)
    (hcond : x.condition = input.escrow.condition.map fun k ↦ k.commitment C.toCrates)
    (hamount : x.escrow.amount ≠ 0)
    (hmet : ∀ k, input.escrow.condition = some k → k.Satisfied C.toCrates)
    (hrecorded : x.params.RecordedAs C.toCrates x.commitment) :
    ∃ r, releaseProof C P fromStr Z x.metadata = .ok (some r) := by
  obtain ⟨recipient, -, -, -, hmetadata, hescrow⟩ := x.escrow_eq
  obtain ⟨k, hk⟩ := exists_condition_of_input hinput
  rw [hk, Option.map_some] at hcond
  have hparams : x.metadata.params = x.params := by rw [hmetadata]
  have haddress := (EthereumAgent.parseAddress_eq_ok hC).mp x.escrowAddress_eq
  rw [← hparams] at hrecorded
  have hne (a : Ethereum.Address) : Ethereum.addressBytes a ≠ [] :=
    List.ne_nil_of_length_pos (by rw [Ethereum.addressBytes, length_toBE]; norm_num)
  have hcarries : input.Carries C.toCrates x.commitment := by
    refine hrecorded.carries hinput ?_ (fun id hforChain ↦ ?_) ?_ ?_
    · rw [hparams, x.chain_eq]
      rfl
    · rw [hparams, x.chain_eq] at hforChain
      exact ID.toBytes_of_forChain hC hforChain haddress
    · rw [hmetadata]
      rfl
    · rw [hk, Option.map_some, Option.some.injEq]
      apply Subtype.ext
      rw [commitment, hescrow, hcond]
      exact toBE_b256 _
  have hreleasable : input.Releasable C.toCrates := by
    refine hrecorded.releasable hinput ?_ (hne _) (hne _) rfl ?_ hmet
    · rw [hmetadata]
    · rw [hparams]
      intro hzero
      rw [hescrow, hzero] at hamount
      exact hamount rfl
  exact exists_releaseProof hZ hx hinput hreleasable hcarries rfl
    (Ethereum.encodable_releaseCommitment _ _ _)

end

section

variable {forced block : ℕ} {actions : List Ethereum.Action} (hC : C.Standard)
  (h : x.MadeIn D ((Machine.init forced block).run D actions)) {Z : ZkVm}
  (hZ : Z.Serves C.toCrates fun receiptSeal journal ↦
    ∀ moment, D.verify moment receiptSeal D.imageId (D.sha256 journal) = true)
  {P : Process} {fromStr : Str → Except String Condition} {input : ProofInput}
  (hinput : releaseProofInput C P fromStr x.metadata = .ok (some input)) (hx : input.Portable)
  (hcond : x.condition = input.escrow.condition.map fun k ↦ k.commitment C.toCrates)
  (hne : x.condition ≠ some (.zero 32)) {later : List Ethereum.Action} {wallet : Ethereum.Address}
  {tx : Submission}

include hC h hZ hinput hx hcond hne

theorem MadeIn.allowed_of_releaseProof {proof : ReleaseProof}
    (hp : releaseProof C P fromStr Z x.metadata = .ok (some proof)) :
    input.Releasable C.toCrates ∧ ∀ caller n moment,
      FinishAllowed D ⟨caller, 0, n, moment⟩ x.id proof.receiptSeal proof.journal x.escrow ↔
        caller = x.escrow.recipient ∧ x.escrow.finishAfter.toNat ≤ n ∧
          x.params.asset.IsNative C.toCrates ∧
          x.params.sender.toBytes C.toCrates = .ok (Ethereum.addressBytes x.agent.sender) ∧
          x.params.recipient.identity.PlainHex := by
  obtain ⟨k, hk⟩ := exists_condition_of_input hinput
  have hsome : x.condition ≠ none := by
    rw [hcond, hk]
    exact Option.some_ne_none _
  obtain ⟨hmet, -, receipt, hverify, hseal, hjournal⟩ :=
    releaseProof_sound hZ.executes hx hinput hp
  obtain ⟨receiptSeal, hseal', haccepts⟩ := hZ.seals receipt hverify
  obtain rfl := Except.ok.inj (hseal'.symm.trans hseal)
  rw [hjournal] at haccepts
  exact ⟨hmet, fun _ _ moment ↦ h.allowed_iff hC (.ofProof hZ.executes hx hinput hp hcond) hne
    hsome (haccepts moment)⟩

theorem MadeIn.finishes_proved_iff (hself : wallet ≠ D.self) :
    let m := (Machine.init forced block).run D (actions ++ x.action :: later)
    m.Idle →
    ((∃ proof m', releaseProof C P fromStr Z x.metadata = .ok (some proof) ∧
        x.agent.finishEscrow D (some wallet) tx x.metadata (some proof) m = .ok m') ↔
      (∀ k, input.escrow.condition = some k → k.Satisfied C.toCrates) ∧
      wallet = x.escrow.recipient ∧ (m.world.storage.escrows x.id).settled = false ∧
      x.escrow.finishAfter.toNat ≤ m.block ∧ tx.estimate.accepts = true ∧
      x.params.asset.IsNative C.toCrates ∧
      x.params.sender.toBytes C.toCrates = .ok (Ethereum.addressBytes x.agent.sender) ∧
      x.params.recipient.identity.PlainHex) := by
  intro m hidle
  have hproof {proof} (hp : releaseProof C P fromStr Z x.metadata = .ok (some proof)) :=
    h.allowed_of_releaseProof hC hZ hinput hx hcond hne hp
  constructor
  · rintro ⟨proof, m', hp, hfinish⟩
    obtain ⟨hmet, hallowed⟩ := hproof hp
    obtain ⟨⟨hok, hunsettled, haccepts⟩, -⟩ := (h.finishEscrow_eq_ok hself hidle).mp hfinish
    obtain ⟨hwallet, htime, hrecorded⟩ := (hallowed _ _ _).mp hok
    exact ⟨hmet.condition, hwallet, hunsettled, htime, haccepts, hrecorded⟩
  · rintro ⟨hmet, hwallet, hunsettled, htime, haccepts, hrecorded⟩
    have hamount : x.escrow.amount ≠ 0 :=
      ((Machine.recorded D forced block _).created _ _ (h.mem_creations later)).2
    obtain ⟨proof, hp⟩ := x.exists_releaseProof_of_recordedAs hC hZ hinput hx hcond hamount hmet
      ((x.recordedAs_iff hC).mpr hrecorded)
    have hok := ((hproof hp).2 wallet m.block tx.estimate.moment).mpr ⟨hwallet, htime, hrecorded⟩
    exact ⟨proof, _, hp,
      (h.finishEscrow_eq_ok hself hidle).mpr ⟨⟨hok, hunsettled, haccepts⟩, rfl⟩⟩

theorem MadeIn.settled_of_proved (hself : wallet ≠ D.self) {proof : ReleaseProof} {m' : Machine}
    (hp : releaseProof C P fromStr Z x.metadata = .ok (some proof)) :
    let m := (Machine.init forced block).run D (actions ++ x.action :: later)
    m.Idle → x.agent.finishEscrow D (some wallet) tx x.metadata (some proof) m = .ok m' →
      (m.run D tx.before).Idle → tx.included.accepts = true →
      m'.world.storage.escrows x.id = x.escrow.settle ∧
      ∃ p, payouts x.id m'.world.log = [p] ∧
        (p.transfer = some ⟨x.escrow.recipient, x.escrow.amount⟩ ∨
          p.transfer = some ⟨x.escrow.sender, x.escrow.amount⟩ ∧
            x.escrow.cancelAfter ≠ 0 ∧ x.escrow.cancelAfter.toNat ≤ m'.block) := by
  intro m hidle hfinish hidle' haccepts
  obtain ⟨-, hallowed⟩ := h.allowed_of_releaseProof hC hZ hinput hx hcond hne hp
  obtain ⟨⟨hok, -, -⟩, rfl⟩ := (h.finishEscrow_eq_ok hself hidle).mp hfinish
  obtain ⟨hwallet, htime, hrecorded⟩ := (hallowed _ _ _).mp hok
  refine h.settled hself (.inr ⟨_, _, rfl⟩) hidle hidle' (fun n hn ↦ ?_) haccepts
  exact Ethereum.permits_finish.mpr
    ((hallowed _ n tx.included.moment).mpr ⟨hwallet, htime.trans hn, hrecorded⟩)

end

/-- **When the client's release goes through, and what comes of it.** Let the client have created an
escrow with the commitment of the condition that it now reads from the conditions file. At any later
time outside all calls, it proves the release and sends it exactly if the condition is satisfied,
the wallet is the recipient's, the escrow is not settled, its time has come, the payee takes the ETH
at the estimate, and the parameters are of the native coin, name the signer as the sender, and have
the recipient in plain hex. Whatever comes between the estimate and the transaction, if the payee
takes the ETH then as well, the escrow is settled by one payout of its amount: to the recipient, or
to the sender if it could be cancelled by then. -/
theorem release_on_ethereum (hC : C.Standard) (x : EthereumCreation C) {D : Ethereum.Deployment}
    {Z : ZkVm} (hZ : Z.Serves C.toCrates fun receiptSeal journal ↦
      ∀ moment, D.verify moment receiptSeal D.imageId (D.sha256 journal) = true)
    {forced block : ℕ} {actions : List Ethereum.Action}
    (h : x.MadeIn D ((Machine.init forced block).run D actions)) {P : Process}
    {fromStr : Str → Except String Condition} {input : ProofInput}
    (hinput : releaseProofInput C P fromStr x.metadata = .ok (some input)) (hx : input.Portable)
    (hcond : x.condition = input.escrow.condition.map fun k ↦ k.commitment C.toCrates)
    (hne : x.condition ≠ some (.zero 32)) (later : List Ethereum.Action)
    {wallet : Ethereum.Address} (hself : wallet ≠ D.self) (tx : Submission) :
    let m := (Machine.init forced block).run D (actions ++ x.action :: later)
    m.Idle →
    ((∃ proof m', releaseProof C P fromStr Z x.metadata = .ok (some proof) ∧
        x.agent.finishEscrow D (some wallet) tx x.metadata (some proof) m = .ok m') ↔
      (∀ k, input.escrow.condition = some k → k.Satisfied C.toCrates) ∧
      wallet = x.escrow.recipient ∧ (m.world.storage.escrows x.id).settled = false ∧
      x.escrow.finishAfter.toNat ≤ m.block ∧ tx.estimate.accepts = true ∧
      x.params.asset.IsNative C.toCrates ∧
      x.params.sender.toBytes C.toCrates = .ok (Ethereum.addressBytes x.agent.sender) ∧
      x.params.recipient.identity.PlainHex) ∧
    ∀ proof m', releaseProof C P fromStr Z x.metadata = .ok (some proof) →
      x.agent.finishEscrow D (some wallet) tx x.metadata (some proof) m = .ok m' →
      (m.run D tx.before).Idle → tx.included.accepts = true →
      m'.world.storage.escrows x.id = x.escrow.settle ∧
      ∃ p, payouts x.id m'.world.log = [p] ∧
        (p.transfer = some ⟨x.escrow.recipient, x.escrow.amount⟩ ∨
          p.transfer = some ⟨x.escrow.sender, x.escrow.amount⟩ ∧
            x.escrow.cancelAfter ≠ 0 ∧ x.escrow.cancelAfter.toNat ≤ m'.block) := by
  intro m hidle
  exact ⟨h.finishes_proved_iff hC hZ hinput hx hcond hne hself hidle, fun proof m' hp ↦
    h.settled_of_proved hC hZ hinput hx hcond hne hself hp hidle⟩

theorem checkJournalBinding_nil (self : Ethereum.Address) (r : EscrowDB) (i : Ethereum.Word) :
    Ethereum.checkJournalBinding self r i [] ≠ .ok () := by
  intro h
  obtain ⟨-, hjournal⟩ := Ethereum.checkJournalBinding_eq_ok.mp h
  obtain ⟨-, hlayout⟩ := PublicCommitment.toJournalBytes_iff.mp hjournal
  exact List.cons_ne_nil _ _ hlayout.symm

theorem sender_eq (x : EthereumCreation C) : x.escrow.sender = x.agent.sender := by
  obtain ⟨_, -, -, -, -, hescrow⟩ := x.escrow_eq
  rw [hescrow]

section

variable {forced block : ℕ} {actions : List Ethereum.Action}
  (h : x.MadeIn D ((Machine.init forced block).run D actions)) {later : List Ethereum.Action}
  {tx : Submission}

include h

theorem MadeIn.finishAllowed_unproved_iff {wallet : Ethereum.Address} {n moment : ℕ} :
    FinishAllowed D ⟨wallet, 0, n, moment⟩ x.id [] [] x.escrow ↔
      wallet = x.escrow.recipient ∧ x.escrow.conditionId = 0 ∧ x.escrow.finishAfter.toNat ≤ n := by
  have hmem := h.mem_creations []
  have hunsettled := ((Machine.recorded D forced block _).created _ _ hmem).1
  constructor
  · intro hallowed
    refine ⟨hallowed.caller, ?_, hallowed.time⟩
    by_contra hcond
    exact checkJournalBinding_nil _ _ _ (hallowed.proof hcond).1
  · rintro ⟨hcaller, hcond, htime⟩
    refine ⟨?_, hcaller, hunsettled, htime, fun hne ↦ absurd hcond hne⟩
    rw [x.sender_eq]
    exact h.signer.2

theorem MadeIn.cancelAllowed_iff {n moment : ℕ} :
    CancelAllowed ⟨x.agent.sender, 0, n, moment⟩ x.escrow ↔
      x.escrow.cancelAfter ≠ 0 ∧ x.escrow.cancelAfter.toNat ≤ n := by
  have hmem := h.mem_creations []
  have hunsettled := ((Machine.recorded D forced block _).created _ _ hmem).1
  constructor
  · exact fun hallowed ↦ ⟨hallowed.enabled, hallowed.time⟩
  · rintro ⟨henabled, htime⟩
    refine ⟨?_, x.sender_eq.symm, hunsettled, henabled, htime⟩
    rw [x.sender_eq]
    exact h.signer.2

theorem MadeIn.finishes_unproved_iff {wallet : Ethereum.Address} (hself : wallet ≠ D.self) :
    let m := (Machine.init forced block).run D (actions ++ x.action :: later)
    m.Idle →
    ((∃ m', x.agent.finishEscrow D (some wallet) tx x.metadata none m = .ok m') ↔
      wallet = x.escrow.recipient ∧ x.escrow.conditionId = 0 ∧
      (m.world.storage.escrows x.id).settled = false ∧
      x.escrow.finishAfter.toNat ≤ m.block ∧ tx.estimate.accepts = true) := by
  intro m hidle
  constructor
  · rintro ⟨m', hsent⟩
    obtain ⟨⟨hallowed, hnow, haccepts⟩, -⟩ := (h.finishEscrow_eq_ok hself hidle).mp hsent
    obtain ⟨hwallet, hcond, htime⟩ := h.finishAllowed_unproved_iff.mp hallowed
    exact ⟨hwallet, hcond, hnow, htime, haccepts⟩
  · rintro ⟨hwallet, hcond, hnow, htime, haccepts⟩
    exact ⟨_, (h.finishEscrow_eq_ok hself hidle).mpr
      ⟨⟨h.finishAllowed_unproved_iff.mpr ⟨hwallet, hcond, htime⟩, hnow, haccepts⟩, rfl⟩⟩

theorem MadeIn.cancels_iff :
    let m := (Machine.init forced block).run D (actions ++ x.action :: later)
    m.Idle →
    ((∃ m', x.agent.cancelEscrow D tx x.metadata m = .ok m') ↔
      (m.world.storage.escrows x.id).settled = false ∧ x.escrow.cancelAfter ≠ 0 ∧
      x.escrow.cancelAfter.toNat ≤ m.block ∧ tx.estimate.accepts = true) := by
  intro m hidle
  constructor
  · rintro ⟨m', hsent⟩
    obtain ⟨⟨hallowed, hnow, haccepts⟩, -⟩ := (h.cancelEscrow_eq_ok hidle).mp hsent
    obtain ⟨henabled, htime⟩ := h.cancelAllowed_iff.mp hallowed
    exact ⟨hnow, henabled, htime, haccepts⟩
  · rintro ⟨hnow, henabled, htime, haccepts⟩
    exact ⟨_, (h.cancelEscrow_eq_ok hidle).mpr
      ⟨⟨h.cancelAllowed_iff.mpr ⟨henabled, htime⟩, hnow, haccepts⟩, rfl⟩⟩

theorem MadeIn.settled_of_unproved {m' : Machine} :
    let m := (Machine.init forced block).run D (actions ++ x.action :: later)
    m.Idle →
      (x.agent.cancelEscrow D tx x.metadata m = .ok m' ∨ ∃ wallet, wallet ≠ D.self ∧
        x.agent.finishEscrow D (some wallet) tx x.metadata none m = .ok m') →
      (m.run D tx.before).Idle → tx.included.accepts = true →
      m'.world.storage.escrows x.id = x.escrow.settle ∧
      ∃ p, payouts x.id m'.world.log = [p] ∧
        (p.transfer = some ⟨x.escrow.recipient, x.escrow.amount⟩ ∨
          p.transfer = some ⟨x.escrow.sender, x.escrow.amount⟩ ∧
            x.escrow.cancelAfter ≠ 0 ∧ x.escrow.cancelAfter.toNat ≤ m'.block) := by
  intro m hidle hsent hidle' haccepts
  rcases hsent with hsent | ⟨wallet, hself, hsent⟩
  · obtain ⟨⟨hallowed, -, -⟩, rfl⟩ := (h.cancelEscrow_eq_ok hidle).mp hsent
    refine h.settled h.signer.1 (.inl rfl) hidle hidle' (fun n hn ↦ ?_) haccepts
    obtain ⟨henabled, htime⟩ := h.cancelAllowed_iff.mp hallowed
    exact Ethereum.permits_cancel.mpr (h.cancelAllowed_iff.mpr ⟨henabled, htime.trans hn⟩)
  · obtain ⟨⟨hallowed, -, -⟩, rfl⟩ := (h.finishEscrow_eq_ok hself hidle).mp hsent
    refine h.settled hself (.inr ⟨_, _, rfl⟩) hidle hidle' (fun n hn ↦ ?_) haccepts
    obtain ⟨hwallet, hcond, htime⟩ := h.finishAllowed_unproved_iff.mp hallowed
    exact Ethereum.permits_finish.mpr
      (h.finishAllowed_unproved_iff.mpr ⟨hwallet, hcond, htime.trans hn⟩)

end

/-- **What the client does without a proof.** Of an escrow that the client has created, at any later
time outside all calls: it finishes the escrow exactly if the escrow has no condition, the wallet is
the recipient's, the escrow is not settled, its time has come and the recipient takes the ETH at the
estimate; it cancels the escrow exactly if that is enabled, the escrow is not settled, its time has
come and the sender takes the ETH at the estimate. Whatever comes between the estimate and the
transaction, if the payee takes the ETH then as well, the escrow is settled by one payout of its
amount: to the recipient, or to the sender if it could be cancelled by then. -/
theorem unproved_on_ethereum (x : EthereumCreation C) {D : Ethereum.Deployment} {forced block : ℕ}
    {actions : List Ethereum.Action} (h : x.MadeIn D ((Machine.init forced block).run D actions))
    (later : List Ethereum.Action) (tx : Submission) :
    let m := (Machine.init forced block).run D (actions ++ x.action :: later)
    m.Idle →
    (∀ wallet, wallet ≠ D.self →
      ((∃ m', x.agent.finishEscrow D (some wallet) tx x.metadata none m = .ok m') ↔
        wallet = x.escrow.recipient ∧ x.escrow.conditionId = 0 ∧
        (m.world.storage.escrows x.id).settled = false ∧
        x.escrow.finishAfter.toNat ≤ m.block ∧ tx.estimate.accepts = true)) ∧
    ((∃ m', x.agent.cancelEscrow D tx x.metadata m = .ok m') ↔
      (m.world.storage.escrows x.id).settled = false ∧ x.escrow.cancelAfter ≠ 0 ∧
      x.escrow.cancelAfter.toNat ≤ m.block ∧ tx.estimate.accepts = true) ∧
    ∀ m', (x.agent.cancelEscrow D tx x.metadata m = .ok m' ∨ ∃ wallet, wallet ≠ D.self ∧
        x.agent.finishEscrow D (some wallet) tx x.metadata none m = .ok m') →
      (m.run D tx.before).Idle → tx.included.accepts = true →
      m'.world.storage.escrows x.id = x.escrow.settle ∧
      ∃ p, payouts x.id m'.world.log = [p] ∧
        (p.transfer = some ⟨x.escrow.recipient, x.escrow.amount⟩ ∨
          p.transfer = some ⟨x.escrow.sender, x.escrow.amount⟩ ∧
            x.escrow.cancelAfter ≠ 0 ∧ x.escrow.cancelAfter.toNat ≤ m'.block) := by
  intro m hidle
  exact ⟨fun wallet hself ↦ h.finishes_unproved_iff hself hidle, h.cancels_iff hidle,
    fun m' hsent ↦ h.settled_of_unproved hidle hsent⟩

/-- The contract of the sample, whose verifier takes the seals of the sample zkVM. -/
def sampleDeployment : Ethereum.Deployment where
  self := repeated 0xee
  verifier := 6
  imageId := 9
  verifier_ne_zero := by decide
  imageId_ne_zero := by decide
  verify _ receiptSeal _ digest := receiptSeal = digest.1
  sha256 := Codecs.sample.sha256

theorem serves_sample : (ZkVm.sample Codecs.sample.toCrates).Serves Codecs.sample.toCrates
    fun receiptSeal journal ↦ ∀ moment, sampleDeployment.verify moment receiptSeal
      sampleDeployment.imageId (sampleDeployment.sha256 journal) = true where
  executes := ZkVm.executes_sample _
  completes := ZkVm.completes_sample _
  seals receipt h := ⟨receipt.inner, rfl, fun _ ↦ decide_eq_true (ensure_eq_ok.mp h)⟩

theorem portable_sampleInput : (sampleInput .native).Portable where
  thresholds := fun c hc ↦ by
    obtain rfl := Option.some.inj hc
    exact .hashlock _
  fits := by
    rw [Bincode.Fits]
    decide +kernel

theorem madeIn_sample : (EthereumCreation.sample .native).MadeIn sampleDeployment
    ((Machine.init 0 0).run sampleDeployment []) where
  self := rfl
  signer := ⟨by decide, by decide⟩
  idle := rfl
  storage := rfl
  block := rfl

theorem condition_sample_ne : (EthereumCreation.sample .native).condition ≠ some (.zero 32) := by
  have hne : Condition.sample.commitment Codecs.sample.toCrates ≠ .zero 32 := by decide +kernel
  have hcondition : (EthereumCreation.sample .native).condition
      = some (Condition.sample.commitment Codecs.sample.toCrates) := rfl
  rw [hcondition, Ne, Option.some.injEq]
  exact hne

/-- The sample is released at block 7, though the estimate was made at block 5. -/
theorem release_on_ethereum_sample :
    let x := EthereumCreation.sample .native
    let p := Release.sample .native
    let m := (Machine.init 0 0).run sampleDeployment [x.action, .roll 5]
    ∃ proof m', releaseProof .sample p.process p.fromStr (.sample Codecs.sample.toCrates) x.metadata
        = .ok (some proof) ∧
      x.agent.finishEscrow sampleDeployment (some (repeated 0xaa)) ⟨⟨0, true⟩, [.roll 7], ⟨1, true⟩⟩
        x.metadata (some proof) m = .ok m' ∧
      ∃ q, payouts 1 m'.world.log = [q] ∧ (q.transfer = some ⟨repeated 0xaa, 5⟩ ∨
        q.transfer = some ⟨repeated 0xbb, 5⟩ ∧ (10 : Ethereum.Word) ≠ 0 ∧ 10 ≤ m'.block) := by
  intro x p m
  have hidle : m.Idle := madeIn_sample.idle_roll 5
  obtain ⟨hiff, hend⟩ := release_on_ethereum Codecs.standard_sample x serves_sample madeIn_sample
    p.input_eq portable_sampleInput p.condition_eq condition_sample_ne [.roll 5]
    (show repeated 0xaa ≠ sampleDeployment.self by decide)
    ⟨⟨0, true⟩, [.roll 7], ⟨1, true⟩⟩ hidle
  obtain ⟨proof, m', hproof, hfinish⟩ := hiff.mpr ⟨fun k hk ↦ by
      obtain rfl := Option.some.inj hk
      exact Condition.satisfied_hashlock.mpr rfl,
    by decide, by decide +kernel, Nat.zero_le _, rfl,
    ⟨rfl, fun id hid ↦ absurd hid.symm (Option.some_ne_none id)⟩, by decide, _, rfl, by decide⟩
  obtain ⟨-, q, hq, htransfer⟩ := hend proof m' hproof hfinish (hidle.roll 7) rfl
  exact ⟨proof, m', hproof, hfinish, q, hq, htransfer⟩

/-- The sample is refunded at block 12. -/
theorem unproved_on_ethereum_sample :
    let x := EthereumCreation.sample .native
    let m := (Machine.init 0 0).run sampleDeployment [x.action, .roll 10]
    ∃ m', x.agent.cancelEscrow sampleDeployment ⟨⟨0, true⟩, [.roll 12], ⟨1, true⟩⟩ x.metadata m
        = .ok m' ∧ ∃ q, payouts 1 m'.world.log = [q] := by
  intro x m
  have hidle : m.Idle := madeIn_sample.idle_roll 10
  obtain ⟨-, hcancel, hend⟩ := unproved_on_ethereum x madeIn_sample [.roll 10]
    ⟨⟨0, true⟩, [.roll 12], ⟨1, true⟩⟩ hidle
  obtain ⟨m', hsent⟩ := hcancel.mpr ⟨by decide +kernel, by decide, by decide +kernel, rfl⟩
  obtain ⟨-, q, hq, -⟩ := hend m' (.inl hsent) (hidle.roll 12) rfl
  exact ⟨m', hsent, q, hq⟩

end EthereumCreation

end Zescrow
