import Zescrow.Client.ReleaseProof
import Zescrow.Solana.Exit

/-!
# Settling on Solana with the client

A transaction is confirmed only if its instruction has taken effect, so on Solana the client's
success is the program's. Whether it gets that far depends on the whole way from the parameters to
the program: the proof is submitted without its journal, framed for the router, and the program puts
the digest of the journal it reconstructs behind. The router takes the seal if that is the digest of
the journal the guest has committed, and if it is given the accounts it works on. The client gives
it none, so a router that needs some is reached by an instruction that somebody adds them to.

The escrow is the account the creation has initialized, for as long as it is not settled.
-/

open Foundation

namespace Zescrow

namespace SolanaAgent

/-- Refunds an escrow on-chain. The transaction is signed with the agent's keypair, which panics if
it is not the payer's. -/
def cancelEscrow (C : Codecs) (R : Solana.Runtime) (agent : SolanaAgent) (slot : ℕ)
    (metadata : EscrowMetadata) (accounts : Solana.Accounts) :
    Except ClientError Solana.Accounts := do
  let sender ← parsePubkey C (metadata.params.sender.display C)
  let recipient ← parsePubkey C (metadata.params.recipient.display C)
  let id ← escrowId metadata "cancel_escrow"
  let escrowPda := (R.findProgramAddress (Solana.escrowSeeds sender recipient id)).1
  validateKeypair agent.senderKeypair sender "sender"
  ensure (agent.escrowProgramId = Solana.programId) (.solana "cancel_escrow" "no such program")
  let (accounts, _) ← (Solana.cancelEscrow R slot sender escrowPda accounts).mapError
    fun _ ↦ .solana "cancel_escrow" "transaction failed"
  .ok accounts

end SolanaAgent

/-! ## What the program does with a settlement of a live account -/

namespace Solana

theorem routerVerify_framed (sha256 : Bytes → FixedBytes 32) (check : VerifyArgs → Bool)
    (imageId : FixedBytes 32) (e : EscrowAccount) {receiptSeal : Bytes}
    (hlen : receiptSeal.length < 2 ^ 32) :
    routerVerify sha256 check
        (releaseProofData sha256 imageId e (toLE 4 receiptSeal.length ++ receiptSeal)) ≠ none ↔
      check ⟨receiptSeal, imageId, sha256 (reconstructJournal e)⟩ = true := by
  have hdata : releaseProofData sha256 imageId e (toLE 4 receiptSeal.length ++ receiptSeal) =
      verifyDiscriminator sha256 ++ (toLE 4 receiptSeal.length ++ receiptSeal ++ imageId.1 ++
        (sha256 (reconstructJournal e)).1) := by
    simp only [releaseProofData, List.append_assoc]
  have hdisc := length_verifyDiscriminator sha256
  rw [hdata, routerVerify, if_pos (List.take_left' hdisc), List.drop_left' hdisc, Parser.parse,
    readVerifyArgs_framed hlen]
  simp [Except.map]

section

variable {R : Runtime} {accounts : Accounts} {a : Pubkey} {e : EscrowAccount}

/-- When the recipient can finish a live account. -/
theorem Funded.finish_isOk (hf : Funded R accounts)
    (htotal : Ledger.total accounts.lamports < 2 ^ 64) (hdata : (accounts a).data = some e)
    (he : e.Exitable R) {slot moment : ℕ} {remaining : List AccountMeta} {receiptSeal : Bytes} :
    (∃ accounts' ev, finishEscrow R slot moment e.recipient e.sender a verifierRouterId remaining
        receiptSeal accounts = .ok (accounts', ev)) ↔
      R.canSign e.recipient = true ∧ (∀ t, e.finishAfter = some t → t.toNat ≤ slot) ∧
        (e.condition ≠ noCondition → routerVerify R.sha256 (R.router moment remaining)
          (releaseProofData R.sha256 R.imageId e receiptSeal) ≠ none) := by
  constructor
  · rintro ⟨accounts', ev, h⟩
    obtain ⟨e', hdata', hallowed, -⟩ := finishEscrow_eq_ok.mp h
    obtain rfl := Option.some.inj (hdata.symm.trans hdata')
    exact ⟨hallowed.caller ▸ hallowed.signed, hallowed.time, hallowed.proof⟩
  · rintro ⟨hsign, htime, hproof⟩
    obtain ⟨accounts', h⟩ := hf.exists_finish htotal hdata
      ⟨hsign, rfl, (hf a e hdata).createProgramAddress_eq he, rfl, rfl, htime, hproof⟩
    exact ⟨accounts', _, h⟩

theorem Funded.cancel_isOk (hf : Funded R accounts)
    (htotal : Ledger.total accounts.lamports < 2 ^ 64) (hdata : (accounts a).data = some e)
    (he : e.Exitable R) {slot : ℕ} :
    (∃ accounts' ev, cancelEscrow R slot e.sender a accounts = .ok (accounts', ev)) ↔
      ∃ t, e.cancelAfter = some t ∧ t.toNat ≤ slot := by
  have hbacked := hf a e hdata
  constructor
  · rintro ⟨accounts', ev, h⟩
    obtain ⟨e', hdata', hallowed, -⟩ := cancelEscrow_eq_ok.mp h
    obtain rfl := Option.some.inj (hdata.symm.trans hdata')
    exact hallowed.time
  · intro htime
    obtain ⟨accounts', h⟩ := hf.exists_cancel htotal hdata
      ⟨hbacked.sender, hbacked.createProgramAddress_eq he, rfl, htime⟩
    exact ⟨accounts', _, h⟩

end

end Solana

/-! ## The escrow of a creation -/

namespace SolanaCreation

open Solana (World Funded)

variable {C : Codecs} (x : SolanaCreation C)

/-- The arguments of the creation. -/
def args : Solana.CreateEscrowArgs where
  id := x.freshEscrowId
  amount := UInt64.ofNat x.params.asset.amount
  finishAfter := x.params.finishAfter
  cancelAfter := x.params.cancelAfter
  condition := x.condition.getD (.zero 32)

/-- What it writes. -/
def escrow : Solana.EscrowAccount :=
  Solana.newEscrow x.runtime x.agent.senderKeypair x.recipient x.args

/-- Its instruction. -/
def action : Solana.Action := .create x.agent.senderKeypair x.recipient x.address x.args

theorem createEscrow_eq : ∃ ev, Solana.createEscrow x.runtime x.agent.senderKeypair x.recipient
    x.address x.args x.before = .ok (x.after, ev) := by
  obtain ⟨recipient, amount, ev, -, hrecipient, hamount, -, hcreate, -⟩ :=
    SolanaAgent.createEscrow_eq_ok.mp x.created
  obtain rfl := Except.ok.inj (hrecipient.symm.trans x.recipient_eq)
  have hargs : x.args = ⟨x.freshEscrowId, amount, x.params.finishAfter, x.params.cancelAfter,
      x.condition.getD (.zero 32)⟩ := by
    rw [args, ← hamount, UInt64.ofNat_toNat]
  rw [hargs]
  exact ⟨ev, hcreate⟩

variable {x}

theorem after_data (x : SolanaCreation C) : (x.after x.address).data = some x.escrow := by
  obtain ⟨ev, hcreate⟩ := x.createEscrow_eq
  exact (Solana.createEscrow_data hcreate).2.1

theorem step_accounts {w : World} (h : x.before = w.accounts) :
    (w.step x.runtime x.action).accounts = x.after := by
  obtain ⟨ev, hcreate⟩ := x.createEscrow_eq
  rw [h] at hcreate
  rw [action, World.step, hcreate]
  rfl

theorem keeps {w : World} (h : x.before = w.accounts) :
    (w.step x.runtime x.action).Keeps w.created.length x.address x.escrow := by
  obtain ⟨ev, hcreate⟩ := x.createEscrow_eq
  rw [h] at hcreate
  rw [action, World.step, hcreate]
  exact .inr ⟨x.after_data, Function.update_self ..⟩

/-- The account is live, and can be settled as its terms allow. -/
structure Live (x : SolanaCreation C) (w : World) : Prop where
  data : (w.accounts x.address).data = some x.escrow
  funded : Funded x.runtime w.accounts
  total : Ledger.total w.accounts.lamports < 2 ^ 64
  exitable : x.escrow.Exitable x.runtime

/-- Whatever happens after the creation, the escrow has been settled or its account is live. -/
theorem settled_or_live {lamports : Solana.Pubkey → ℕ} (htotal : Ledger.total lamports < 2 ^ 64)
    {slot : ℕ} {actions : List Solana.Action}
    (h : x.before = ((World.init lamports slot).run x.runtime actions).accounts)
    (later : List Solana.Action) :
    let w := (World.init lamports slot).run x.runtime (actions ++ x.action :: later)
    ((World.init lamports slot).run x.runtime actions).created.length ∈ w.settled ∨ x.Live w := by
  intro w
  have hrun : w = (((World.init lamports slot).run x.runtime actions).step x.runtime
      x.action).run x.runtime later := by
    change (World.init lamports slot).run x.runtime (actions ++ x.action :: later) = _
    rw [World.run, run_append]
    rfl
  have hkeeps := (keeps h).run x.runtime later
  rw [← hrun] at hkeeps
  have hconserved := World.conserved x.runtime lamports slot (actions ++ x.action :: later)
  refine hkeeps.imp id fun hkept ↦ ⟨hkept.1, hconserved.funded, ?_,
    World.exitable x.runtime lamports slot _ hkept.1⟩
  rw [hconserved.total]
  exact htotal

theorem finishEscrow_eq_ok {keypair : Solana.Pubkey} {slot moment : ℕ} {proof : Option ReleaseProof}
    {accounts accounts' : Solana.Accounts} :
    x.agent.finishEscrow C x.runtime (some keypair) slot moment x.metadata proof accounts
      = .ok accounts' ↔
    keypair = x.recipient ∧ ∃ receiptSeal, SolanaAgent.submittedSeal proof = .ok receiptSeal ∧
      ∃ ev, Solana.finishEscrow x.runtime slot moment x.escrow.recipient x.escrow.sender x.address
        Solana.verifierRouterId [] receiptSeal accounts = .ok (accounts', ev) := by
  obtain ⟨hsender, hprogram, hmetadata, -⟩ := x.exists_escrow
  have hparams : x.metadata.params = x.params := by rw [hmetadata]
  have hid : x.metadata.escrowId = some x.freshEscrowId := by rw [hmetadata]
  rw [SolanaAgent.finishEscrow, hparams, hsender, x.recipient_eq, SolanaAgent.escrowId, hid]
  simp only [Option.elim, ok_bind, SolanaAgent.validateKeypair, bind_eq_ok, ensure_eq_ok,
    mapError_eq_ok]
  constructor
  · rintro ⟨_, hkeypair, receiptSeal, hseal, _, -, ⟨accounts'', ev⟩, hfinish, haccounts⟩
    obtain rfl := Except.ok.inj haccounts
    exact ⟨hkeypair, receiptSeal, hseal, ev, hfinish⟩
  · rintro ⟨hkeypair, receiptSeal, hseal, ev, hfinish⟩
    exact ⟨(), hkeypair, receiptSeal, hseal, (), hprogram, (accounts', ev), hfinish, rfl⟩

theorem cancelEscrow_eq_ok {slot : ℕ} {accounts accounts' : Solana.Accounts} :
    x.agent.cancelEscrow C x.runtime slot x.metadata accounts = .ok accounts' ↔
      ∃ ev, Solana.cancelEscrow x.runtime slot x.escrow.sender x.address accounts
        = .ok (accounts', ev) := by
  obtain ⟨hsender, hprogram, hmetadata, -⟩ := x.exists_escrow
  have hparams : x.metadata.params = x.params := by rw [hmetadata]
  have hid : x.metadata.escrowId = some x.freshEscrowId := by rw [hmetadata]
  rw [SolanaAgent.cancelEscrow, hparams, hsender, x.recipient_eq, SolanaAgent.escrowId, hid]
  simp only [Option.elim, ok_bind, SolanaAgent.validateKeypair, bind_eq_ok, ensure_eq_ok,
    mapError_eq_ok]
  constructor
  · rintro ⟨_, -, _, -, ⟨accounts'', ev⟩, hcancel, haccounts⟩
    obtain rfl := Except.ok.inj haccounts
    exact ⟨ev, hcancel⟩
  · rintro ⟨ev, hcancel⟩
    exact ⟨(), trivial, (), hprogram, (accounts', ev), hcancel, rfl⟩

theorem condition_ne (hne : x.condition ≠ some (.zero 32)) (hsome : x.condition ≠ none) :
    x.escrow.condition ≠ Solana.noCondition := by
  intro hzero
  cases hc : x.condition with
  | none => exact hsome hc
  | some c =>
    change x.condition.getD (.zero 32) = .zero 32 at hzero
    rw [hc] at hzero
    exact hne (hc.trans (congrArg some hzero))

theorem exists_releaseProof_of_recordedAs (hC : C.Standard) {Z : ZkVm}
    {verify : Bytes → Bytes → Prop} (hZ : Z.Serves C.toCrates verify) {P : Process}
    {fromStr : Str → Except String Condition} {input : ProofInput}
    (hinput : releaseProofInput C P fromStr x.metadata = .ok (some input)) (hx : input.Portable)
    (hcond : x.condition = input.escrow.condition.map fun k ↦ k.commitment C.toCrates)
    (hmet : ∀ k, input.escrow.condition = some k → k.Satisfied C.toCrates)
    (hrecorded : x.params.RecordedAs C.toCrates x.escrow.releaseCommitment) :
    ∃ r, releaseProof C P fromStr Z x.metadata = .ok (some r) := by
  obtain ⟨-, hprogram, hmetadata, -⟩ := x.exists_escrow
  obtain ⟨ev, hcreate⟩ := x.createEscrow_eq
  obtain ⟨-, -, -, hargs, -⟩ := Solana.createEscrow_eq_ok.mp hcreate
  obtain ⟨k, hk⟩ := exists_condition_of_input hinput
  rw [hk, Option.map_some] at hcond
  have hparams : x.metadata.params = x.params := by rw [hmetadata]
  have htext := (SolanaAgent.parsePubkey_eq_ok hC).mp x.escrowProgramId_eq
  rw [← hparams] at hrecorded
  have hne (a : Solana.Pubkey) : a.1 ≠ [] :=
    List.ne_nil_of_length_pos (by rw [a.2]; norm_num)
  have hcarries : input.Carries C.toCrates x.escrow.releaseCommitment := by
    refine hrecorded.carries hinput ?_ (fun id hforChain ↦ ?_) ?_ ?_
    · rw [hparams, x.chain_eq]
      rfl
    · rw [hparams, x.chain_eq, htext, hprogram] at hforChain
      exact ID.toBytes_of_forChain hC hforChain rfl
    · rw [hmetadata]
      rfl
    · rw [hk, Option.map_some, Option.some.injEq]
      change x.condition.getD (.zero 32) = _
      rw [hcond]
      rfl
  have hreleasable : input.Releasable C.toCrates := by
    refine hrecorded.releasable hinput ?_ (hne _) (hne _) rfl ?_ hmet
    · rw [hmetadata]
    · rw [hparams]
      intro hzero
      obtain ⟨-, -, -, hamount⟩ := Solana.validateArgs_eq_ok.mp hargs
      have hargsZero : x.args.amount = 0 := by
        rw [args, hzero]
        rfl
      rw [hargsZero] at hamount
      exact absurd hamount (by decide)
  exact exists_releaseProof hZ hx hinput hreleasable hcarries rfl
    x.escrow.encodable_releaseCommitment

/-- Given these accounts the router takes a seal under the pinned image id for the digest of its
journal, and for no other. -/
def Accepts (R : Solana.Runtime) (routerAccounts : List Solana.AccountMeta)
    (receiptSeal journal : Bytes) : Prop :=
  receiptSeal.length < 2 ^ 32 ∧ ∀ moment digest,
    R.router moment routerAccounts ⟨receiptSeal, R.imageId, digest⟩ = true ↔
      digest = R.sha256 journal

section

variable {Z : ZkVm} {routerAccounts : List Solana.AccountMeta} {P : Process}
  {fromStr : Str → Except String Condition} {input : ProofInput}

/-- The router takes the seal of a release proof exactly if it is of the journal expected. -/
theorem routerVerify_iff (hZ : Z.Serves C.toCrates (Accepts x.runtime routerAccounts))
    (hinput : releaseProofInput C P fromStr x.metadata = .ok (some input)) (hx : input.Portable)
    {proof : ReleaseProof} (hp : releaseProof C P fromStr Z x.metadata = .ok (some proof)) :
    ∃ framed, SolanaAgent.submittedSeal (some proof) = .ok framed ∧ ∀ moment,
      Solana.routerVerify x.runtime.sha256 (x.runtime.router moment routerAccounts)
          (Solana.releaseProofData x.runtime.sha256 x.runtime.imageId x.escrow framed) ≠ none ↔
        x.runtime.sha256 (Solana.reconstructJournal x.escrow)
          = x.runtime.sha256 proof.journal := by
  obtain ⟨-, -, receipt, hverify, hseal, hjournal⟩ :=
    releaseProof_sound hZ.executes hx hinput hp
  obtain ⟨receiptSeal, hseal', hlen, hrouter⟩ := hZ.seals receipt hverify
  obtain rfl := Except.ok.inj (hseal'.symm.trans hseal)
  rw [hjournal] at hrouter
  refine ⟨_, if_pos hlen, fun moment ↦ ?_⟩
  rw [Solana.routerVerify_framed _ _ _ _ hlen]
  exact hrouter moment _

/-- The parameters are such that the guest commits what the program reconstructs. -/
def Reconstructible (x : SolanaCreation C) : Prop :=
  x.params.asset.IsNative C.toCrates ∧ x.params.sender.identity.IsBase58 ∧
    x.params.recipient.identity.IsBase58

/-- **When a proved release goes through, and what comes of it.** Let the client have created an
escrow with the commitment of the condition that it now reads from the conditions file, and let the
router take the seals of the zkVM under the pinned image id when it is given `routerAccounts`.
Whatever happens, the escrow has been settled or its account is live. While it is live, the client
proves the release, and the program carries out a finish with the framed seal and these accounts, if
the condition is satisfied, the recipient can sign, the time has come, the parameters are of the
native coin and both parties are in Base58. When it does, all this is so, unless the digests of two
journals collide; the recipient is paid the amount, and the sender the rest of the account, which
the runtime lets stand exactly if it leaves the recipient exempt from rent. The client's own finish
is the one without accounts for the router, signed with the recipient's keypair. -/
theorem release_on_solana (hC : C.Standard) (x : SolanaCreation C)
    (hZ : Z.Serves C.toCrates (Accepts x.runtime routerAccounts))
    {lamports : Solana.Pubkey → ℕ} (htotal : Ledger.total lamports < 2 ^ 64) {slot : ℕ}
    {actions : List Solana.Action}
    (h : x.before = ((World.init lamports slot).run x.runtime actions).accounts)
    (hinput : releaseProofInput C P fromStr x.metadata = .ok (some input)) (hx : input.Portable)
    (hcond : x.condition = input.escrow.condition.map fun k ↦ k.commitment C.toCrates)
    (hne : x.condition ≠ some (.zero 32)) (later : List Solana.Action) :
    let w := (World.init lamports slot).run x.runtime (actions ++ x.action :: later)
    let finish (routerAccounts : List Solana.AccountMeta) (moment : ℕ) (framed : Bytes) :=
      Solana.finishEscrow x.runtime w.slot moment x.recipient x.agent.senderKeypair x.address
        Solana.verifierRouterId routerAccounts framed w.accounts
    ((World.init lamports slot).run x.runtime actions).created.length ∈ w.settled ∨
    ∀ moment,
      ((∀ k, input.escrow.condition = some k → k.Satisfied C.toCrates) →
        x.runtime.canSign x.recipient = true →
        (∀ t, x.params.finishAfter = some t → t.toNat ≤ w.slot) → x.Reconstructible →
        ∃ proof framed accounts ev, releaseProof C P fromStr Z x.metadata = .ok (some proof) ∧
          SolanaAgent.submittedSeal (some proof) = .ok framed ∧
          finish routerAccounts moment framed = .ok (accounts, ev)) ∧
      (∀ proof framed accounts ev, releaseProof C P fromStr Z x.metadata = .ok (some proof) →
        SolanaAgent.submittedSeal (some proof) = .ok framed →
        finish routerAccounts moment framed = .ok (accounts, ev) →
        (∀ k, input.escrow.condition = some k → k.Satisfied C.toCrates) ∧
        x.runtime.canSign x.recipient = true ∧
        (∀ t, x.params.finishAfter = some t → t.toNat ≤ w.slot) ∧
        (x.Reconstructible ∨
          Collides x.runtime.sha256 [proof.journal, Solana.reconstructJournal x.escrow]) ∧
        Solana.Settles w.accounts accounts x.address
          (Solana.releasePayout x.escrow (w.accounts x.address).lamports) ∧
        (x.runtime.Permits w.accounts accounts ↔ x.runtime.walletReserve ≤
          (w.accounts x.recipient).lamports + x.escrow.amount.toNat)) ∧
      ∀ keypair proof accounts,
        x.agent.finishEscrow C x.runtime (some keypair) w.slot moment x.metadata (some proof)
            w.accounts = .ok accounts ↔
          keypair = x.recipient ∧ ∃ framed, SolanaAgent.submittedSeal (some proof) = .ok framed ∧
            ∃ ev, finish [] moment framed = .ok (accounts, ev) := by
  intro w finish
  obtain ⟨k, hk⟩ := exists_condition_of_input hinput
  have hconditioned := condition_ne hne (by
    rw [hcond, hk]
    exact Option.some_ne_none _)
  refine (settled_or_live htotal h later).imp id fun hlive moment ↦
    ⟨?_, ?_, fun keypair proof accounts ↦ finishEscrow_eq_ok⟩
  · rintro hmet hsign htime ⟨hnative, hsender, hrecipient⟩
    have hrecorded := (x.recordedAs_iff hC x.after_data).mpr ⟨hnative, hsender, hrecipient⟩
    obtain ⟨proof, hp⟩ :=
      exists_releaseProof_of_recordedAs hC hZ hinput hx hcond hmet hrecorded
    obtain ⟨framed, hframed, hrouter⟩ := routerVerify_iff hZ hinput hx hp
    have hjournal : proof.journal = Solana.reconstructJournal x.escrow :=
      (x.reconstructs_iff_recordedAs hC (.ofProof hZ.executes hx hinput hp hcond)
        x.after_data).mpr hrecorded
    obtain ⟨accounts, ev, hfinish⟩ := (hlive.funded.finish_isOk hlive.total hlive.data
      hlive.exitable).mpr ⟨hsign, htime, fun _ ↦ (hrouter moment).mpr (by rw [hjournal])⟩
    exact ⟨proof, framed, accounts, ev, hp, hframed, hfinish⟩
  · intro proof framed accounts ev hp hframed hfinish
    obtain ⟨framed', hframed', hrouter⟩ := routerVerify_iff hZ hinput hx hp
    obtain rfl := Except.ok.inj (hframed'.symm.trans hframed)
    obtain ⟨hsign, htime, hproof⟩ := (hlive.funded.finish_isOk hlive.total hlive.data
      hlive.exitable).mp ⟨accounts, ev, hfinish⟩
    obtain ⟨hsettles, hpermits⟩ := hlive.funded.finish_settles hlive.data hlive.exitable hfinish
    refine ⟨(releaseProof_sound hZ.executes hx hinput hp).1.condition, hsign, htime, ?_,
      hsettles, hpermits⟩
    have hdigest := (hrouter moment).mp (hproof hconditioned)
    have hequal := eq_or_collides [proof.journal, Solana.reconstructJournal x.escrow]
      List.mem_cons_self (List.mem_cons_of_mem _ List.mem_cons_self) hdigest.symm
    refine hequal.imp_left fun hjournal ↦ ?_
    have hrecorded := (x.reconstructs_iff_recordedAs hC (.ofProof hZ.executes hx hinput hp hcond)
      x.after_data).mp hjournal
    exact (x.recordedAs_iff hC x.after_data).mp hrecorded

end

/-- **What the client does without a proof.** Whatever happens after the client has created an
escrow, the escrow has been settled or its account is live. While it is live, the client finishes it
without a proof exactly if it has no condition, the keypair is the recipient's and can sign, and its
time has come, and cancels it exactly if that is enabled and its time has come. The recipient is
paid the amount and the sender the rest, which the runtime lets stand exactly if it leaves the
recipient exempt from rent, or the sender is paid everything, which always stands. -/
theorem unproved_on_solana (x : SolanaCreation C) {lamports : Solana.Pubkey → ℕ}
    (htotal : Ledger.total lamports < 2 ^ 64) {slot : ℕ} {actions : List Solana.Action}
    (h : x.before = ((World.init lamports slot).run x.runtime actions).accounts)
    (later : List Solana.Action) :
    let w := (World.init lamports slot).run x.runtime (actions ++ x.action :: later)
    let held := (w.accounts x.address).lamports
    ((World.init lamports slot).run x.runtime actions).created.length ∈ w.settled ∨
    ∀ keypair moment,
      ((∃ accounts, x.agent.finishEscrow C x.runtime (some keypair) w.slot moment x.metadata none
          w.accounts = .ok accounts) ↔
        keypair = x.recipient ∧ x.runtime.canSign x.recipient = true ∧
          (∀ t, x.params.finishAfter = some t → t.toNat ≤ w.slot) ∧
          x.escrow.condition = Solana.noCondition) ∧
      ((∃ accounts, x.agent.cancelEscrow C x.runtime w.slot x.metadata w.accounts = .ok accounts) ↔
        ∃ t, x.params.cancelAfter = some t ∧ t.toNat ≤ w.slot) ∧
      (∀ accounts, x.agent.finishEscrow C x.runtime (some keypair) w.slot moment x.metadata none
          w.accounts = .ok accounts →
        Solana.Settles w.accounts accounts x.address (Solana.releasePayout x.escrow held) ∧
        (x.runtime.Permits w.accounts accounts ↔ x.runtime.walletReserve ≤
          (w.accounts x.recipient).lamports + x.escrow.amount.toNat)) ∧
      ∀ accounts, x.agent.cancelEscrow C x.runtime w.slot x.metadata w.accounts = .ok accounts →
        Solana.Settles w.accounts accounts x.address (Solana.refundPayout x.escrow held) ∧
        x.runtime.Permits w.accounts accounts := by
  intro w held
  refine (settled_or_live htotal h later).imp id fun hlive keypair moment ↦ ⟨?_, ?_, ?_, ?_⟩
  · have hfinish : (∃ accounts ev, Solana.finishEscrow x.runtime w.slot moment x.escrow.recipient
        x.escrow.sender x.address Solana.verifierRouterId [] [] w.accounts
          = .ok (accounts, ev)) ↔ _ :=
      hlive.funded.finish_isOk hlive.total hlive.data hlive.exitable
    rw [Solana.routerVerify_unsealed] at hfinish
    constructor
    · rintro ⟨accounts, hsent⟩
      obtain ⟨hkeypair, receiptSeal, hseal, ev, hok⟩ := finishEscrow_eq_ok.mp hsent
      obtain rfl := Except.ok.inj hseal
      obtain ⟨hsign, htime, hproof⟩ := hfinish.mp ⟨accounts, ev, hok⟩
      exact ⟨hkeypair, hsign, htime, not_not.mp fun hcond ↦ hproof hcond rfl⟩
    · rintro ⟨rfl, hsign, htime, hcond⟩
      obtain ⟨accounts, ev, hok⟩ := hfinish.mpr ⟨hsign, htime, fun hne ↦ absurd hcond hne⟩
      exact ⟨accounts, finishEscrow_eq_ok.mpr ⟨rfl, [], rfl, ev, hok⟩⟩
  · simp only [cancelEscrow_eq_ok]
    exact hlive.funded.cancel_isOk hlive.total hlive.data hlive.exitable
  · intro accounts hsent
    obtain ⟨-, receiptSeal, -, ev, hok⟩ := finishEscrow_eq_ok.mp hsent
    exact hlive.funded.finish_settles hlive.data hlive.exitable hok
  · intro accounts hsent
    obtain ⟨ev, hok⟩ := cancelEscrow_eq_ok.mp hsent
    exact hlive.funded.cancel_settles hlive.data hok

/-! ## A creation on a chain with one payer -/

/-- The key whose last byte is one, as a party. -/
def recipientParty : Party := ⟨.base58 (List.replicate 31 '1' ++ ['2'])⟩

def sampleRecipient : Solana.Pubkey := ⟨List.replicate 31 0 ++ [1], rfl⟩

/-- The accounts of the sample router. -/
def sampleRouterAccounts : List Solana.AccountMeta := [.newReadonly Solana.verifierRouterId false]

/-- The sample chain with an image id pinned, and a router that takes the seals of the sample zkVM
when it is given its accounts. -/
def sampleRuntime : Solana.Runtime :=
  { Solana.Runtime.sample with
    imageId := sampleRecipient
    router := fun _ accounts args ↦ accounts = sampleRouterAccounts ∧
      args.imageId = sampleRecipient ∧ args.receiptSeal = args.journalDigest.1 }

/-- The sender has had everything. -/
def sampleSupply (a : Solana.Pubkey) : ℕ := if a = .zero 32 then 10000000 else 0

/-- The recipient holds what keeps a wallet, and the sender the rest. -/
def sampleLamports : Solana.Pubkey → ℕ :=
  Ledger.move sampleSupply (.zero 32) sampleRecipient 890880

def sampleParams : EscrowParams where
  chainConfig := ⟨.solana, [], [], Base58.encode Solana.programId.1⟩
  asset := .sample .native
  sender := onesParty
  recipient := recipientParty
  finishAfter := none
  cancelAfter := some 10
  hasConditions := true

def sampleArgs : Solana.CreateEscrowArgs :=
  ⟨1, 5, none, some 10, Condition.sample.commitment Codecs.sample.toCrates⟩

def sampleAddress : Solana.Pubkey :=
  (sampleRuntime.findProgramAddress (Solana.escrowSeeds (.zero 32) sampleRecipient 1)).1

/-- The accounts after the first transfer of the creation, and after the second one. -/
def sampleInitialized : Solana.Accounts :=
  (World.init sampleLamports 0).accounts.transferred (.zero 32) sampleAddress
    sampleRuntime.rentReserve

def sampleFunded : Solana.Accounts := sampleInitialized.transferred (.zero 32) sampleAddress 5

theorem createEscrow_sample : Solana.createEscrow sampleRuntime (.zero 32) sampleRecipient
    sampleAddress sampleArgs (World.init sampleLamports 0).accounts =
      .ok (sampleFunded.setData sampleAddress
        (some (Solana.newEscrow sampleRuntime (.zero 32) sampleRecipient sampleArgs)),
        (Solana.newEscrow sampleRuntime (.zero 32) sampleRecipient sampleArgs).event .created) := by
  have hempty : ((World.init sampleLamports 0).accounts sampleAddress).lamports = 0 := by
    decide +kernel
  refine Solana.createEscrow_eq_ok.mpr ⟨rfl, rfl, by decide, by decide +kernel, rfl,
    sampleInitialized, sampleFunded, ?_, ?_, rfl, rfl⟩
  · rw [hempty]
    exact Solana.systemTransfer_eq_ok.mpr ⟨rfl, by decide +kernel, by decide +kernel, rfl⟩
  · exact Solana.systemTransfer_eq_ok.mpr
      ⟨by decide +kernel, by decide +kernel, by decide +kernel, rfl⟩

theorem parsePubkey_recipient :
    SolanaAgent.parsePubkey .sample (recipientParty.display .sample) = .ok sampleRecipient :=
  (SolanaAgent.parsePubkey_eq_ok Codecs.standard_sample).mpr (by decide +kernel)

/-- The client creates the sample escrow. -/
def sample : SolanaCreation .sample where
  runtime := sampleRuntime
  keypair _ := .ok (.zero 32)
  params := sampleParams
  chain_eq := rfl
  agent := ⟨.zero 32, Solana.programId⟩
  agent_eq := by
    have hid : SolanaAgent.parsePubkey .sample (Base58.encode Solana.programId.1)
        = .ok Solana.programId :=
      (SolanaAgent.parsePubkey_eq_ok Codecs.standard_sample).mpr rfl
    simp only [SolanaAgent.new, sampleParams, hid, Except.mapError, ok_bind]
  recipient := sampleRecipient
  recipient_eq := parsePubkey_recipient
  freshEscrowId := 1
  condition := some (Condition.sample.commitment Codecs.sample.toCrates)
  before := (World.init sampleLamports 0).accounts
  metadata := ⟨sampleParams, .funded, some 1⟩
  after := sampleFunded.setData sampleAddress
    (some (Solana.newEscrow sampleRuntime (.zero 32) sampleRecipient sampleArgs))
  created := SolanaAgent.createEscrow_eq_ok.mpr ⟨sampleRecipient, 5, _,
    SolanaAgent.parsePubkey_ones, parsePubkey_recipient, rfl, rfl, createEscrow_sample, rfl⟩

/-- What the client hands to the prover for the sample. -/
def sampleInput : ProofInput where
  escrow := ⟨.sample .native, recipientParty, onesParty, some Condition.sample, .funded⟩
  chain := .solana
  agentId := .base58 (Base58.encode Solana.programId.1)
  escrowId := 1

theorem portable_sampleInput : sampleInput.Portable where
  thresholds := fun c hc ↦ by
    obtain rfl := Option.some.inj hc
    exact .hashlock _
  fits := by
    rw [Bincode.Fits]
    decide +kernel

theorem releaseProofInput_sample :
    releaseProofInput .sample ⟨[], fun _ ↦ .ok [], fun _ ↦ none⟩ (fun _ ↦ .ok Condition.sample)
      sample.metadata = .ok (some sampleInput) :=
  releaseProofInput_eq_ok.mpr ⟨rfl, _, _, by decide +kernel, rfl, rfl⟩

theorem serves_sample : (ZkVm.sample Codecs.sample.toCrates).Serves Codecs.sample.toCrates
    (Accepts sampleRuntime sampleRouterAccounts) where
  executes := ZkVm.executes_sample _
  completes := ZkVm.completes_sample _
  seals receipt h := by
    have hsealed : receipt.inner = (sampleRuntime.sha256 receipt.journal).1 := ensure_eq_ok.mp h
    refine ⟨receipt.inner, rfl, ?_, fun moment digest ↦ ?_⟩
    · rw [hsealed, (sampleRuntime.sha256 receipt.journal).2]
      norm_num
    · change decide (sampleRouterAccounts = sampleRouterAccounts ∧
        sampleRecipient = sampleRecipient ∧ receipt.inner = digest.1) = true ↔ _
      rw [decide_eq_true_iff, and_iff_right rfl, and_iff_right rfl, hsealed, eq_comm,
        Subtype.ext_iff]

theorem total_sampleLamports : Ledger.total sampleLamports = 10000000 := by
  rw [sampleLamports, Ledger.total_move (by decide), Ledger.total,
    finsum_eq_single sampleSupply (.zero 32) fun a ha ↦ if_neg ha]
  exact if_pos rfl

theorem condition_sample_ne : sample.condition ≠ some (.zero 32) := by
  have hne : Condition.sample.commitment Codecs.sample.toCrates ≠ .zero 32 := by decide +kernel
  have hcondition : sample.condition
      = some (Condition.sample.commitment Codecs.sample.toCrates) := rfl
  rw [hcondition, Ne, Option.some.injEq]
  exact hne

/-- The sample is released, which the runtime lets stand. -/
theorem release_on_solana_sample :
    let w := (World.init sampleLamports 0).run sampleRuntime [sample.action]
    ∃ proof framed accounts ev, releaseProof .sample ⟨[], fun _ ↦ .ok [], fun _ ↦ none⟩
        (fun _ ↦ .ok Condition.sample) (.sample Codecs.sample.toCrates) sample.metadata
          = .ok (some proof) ∧
      SolanaAgent.submittedSeal (some proof) = .ok framed ∧
      Solana.finishEscrow sampleRuntime w.slot 0 sampleRecipient (.zero 32) sampleAddress
        Solana.verifierRouterId sampleRouterAccounts framed w.accounts = .ok (accounts, ev) ∧
      sampleRuntime.Permits w.accounts accounts := by
  intro w
  rcases release_on_solana Codecs.standard_sample sample serves_sample
    (show Ledger.total sampleLamports < 2 ^ 64 by rw [total_sampleLamports]; norm_num)
    (show sample.before = ((World.init sampleLamports 0).run sampleRuntime []).accounts from rfl)
    releaseProofInput_sample portable_sampleInput rfl condition_sample_ne [] with
    hsettled | hexact
  · exact absurd hsettled (by decide +kernel)
  · obtain ⟨hreleases, hsound, -⟩ := hexact 0
    have hmet (k : Condition) (hk : sampleInput.escrow.condition = some k) :
        k.Satisfied Codecs.sample.toCrates := by
      obtain rfl := Option.some.inj hk
      exact Condition.satisfied_hashlock.mpr rfl
    have hnative : sample.Reconstructible :=
      ⟨⟨rfl, fun id hid ↦ absurd hid.symm (Option.some_ne_none id)⟩, ⟨_, rfl⟩, ⟨_, rfl⟩⟩
    obtain ⟨proof, framed, accounts, ev, hproof, hframed, hfinish⟩ :=
      hreleases hmet rfl nofun hnative
    obtain ⟨-, -, -, -, -, hpermits⟩ := hsound proof framed accounts ev hproof hframed hfinish
    exact ⟨proof, framed, accounts, ev, hproof, hframed, hfinish,
      hpermits.mpr (by decide +kernel)⟩

/-- The sample is refunded at slot 10. -/
theorem unproved_on_solana_sample :
    let w := (World.init sampleLamports 0).run sampleRuntime [sample.action, .advance 10]
    ∃ accounts, sample.agent.cancelEscrow .sample sampleRuntime w.slot sample.metadata w.accounts
      = .ok accounts := by
  intro w
  rcases unproved_on_solana sample
    (show Ledger.total sampleLamports < 2 ^ 64 by rw [total_sampleLamports]; norm_num)
    (show sample.before = ((World.init sampleLamports 0).run sampleRuntime []).accounts from rfl)
    [.advance 10] with hsettled | hexact
  · exact absurd hsettled (by decide +kernel)
  · exact (hexact sampleRecipient 0).2.1.mpr ⟨10, rfl, by decide +kernel⟩

end SolanaCreation

end Zescrow
