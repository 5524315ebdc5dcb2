import Zescrow.Client.Agents
import Zescrow.Ethereum.Window
import Zescrow.Solana.Replay
import Zescrow.Solana.Window

/-!
# One time lock on two chains

The parameters of an escrow hold its deadlines as options. The Solana program takes them as they
are; the Ethereum client passes a zero for a missing one, and the contract reads any zero as
missing. So the contract sees the same time lock without its zeros, which is another time lock where
a zero was set on purpose.
-/

open Foundation

namespace Zescrow

/-- What a creation depends on besides the deadlines and the condition, on either chain. -/
structure CreationSite where
  runtime : Solana.Runtime
  sender : Solana.Pubkey
  recipient : Solana.Pubkey
  id : UInt64
  amount : UInt64
  accounts : Solana.Accounts
  msg : Ethereum.Msg
  payee : Ethereum.Address
  storage : Ethereum.Storage

namespace CreationSite

variable (c : CreationSite)

/-- The address of the escrow account. -/
def address : Solana.Pubkey :=
  (c.runtime.findProgramAddress (Solana.escrowSeeds c.sender c.recipient c.id)).1

section

variable (finishAfter cancelAfter : Option UInt64) (condition : FixedBytes 32)

/-- The creation the Solana client asks for. -/
def onSolana : Except Solana.ProgramError (Solana.Accounts × Solana.EscrowEvent) :=
  Solana.createEscrow c.runtime c.sender c.recipient c.address
    ⟨c.id, c.amount, finishAfter, cancelAfter, condition⟩ c.accounts

/-- The creation the Ethereum client asks for. -/
def onEthereum : Except Ethereum.Revert (Ethereum.Storage × Ethereum.Event) :=
  Ethereum.createEscrow c.msg c.payee (u256 (finishAfter.getD 0)) (u256 (cancelAfter.getD 0))
    (b256 condition) c.storage

/-- Both agents accept or refuse the creation, and an escrow both have accepted opens and closes at
the same heights. -/
structure Agree : Prop where
  accepted : (∃ r, c.onSolana finishAfter cancelAfter condition = .ok r) ↔
    ∃ r, c.onEthereum finishAfter cancelAfter condition = .ok r
  windows : ∀ accounts e s e', c.onSolana finishAfter cancelAfter condition = .ok (accounts, e) →
    c.onEthereum finishAfter cancelAfter condition = .ok (s, e') →
    ∃ escrow, (accounts c.address).data = some escrow ∧ ∀ n,
      (escrow.timeLock.FinishOpen n ↔ (s.escrows s.nextEscrowId).timeLock.FinishOpen n) ∧
      (escrow.timeLock.CancelOpen n ↔ (s.escrows s.nextEscrowId).timeLock.CancelOpen n)

end

/-- All the other arguments of the two creations are valid. -/
structure Valid : Prop where
  signed : c.runtime.canSign c.sender = true
  distinct : c.recipient ≠ c.sender
  amount : 0 < c.amount
  vacant : (c.accounts c.address).data = none
  paid : ∃ initialized funded,
    Solana.systemTransfer c.sender c.address
      (c.runtime.rentReserve - (c.accounts c.address).lamports) c.accounts = .ok initialized ∧
    Solana.systemTransfer c.sender c.address c.amount.toNat initialized = .ok funded
  payee : c.payee ≠ 0
  value : c.msg.value ≠ 0
  issuable : c.storage.nextEscrowId.toNat + 1 < 2 ^ 256

/-- The time lock of the parameters. -/
def timeLock (finishAfter cancelAfter : Option UInt64) : TimeLock :=
  ⟨finishAfter.map UInt64.toNat, cancelAfter.map UInt64.toNat⟩

theorem deadline_u256 (t : Option UInt64) :
    Ethereum.deadline (u256 (t.getD 0)) = (t.map UInt64.toNat).filter (· ≠ 0) := by
  have hzero (n : UInt64) : u256 n = 0 ↔ n.toNat = 0 := by
    rw [← BitVec.toNat_inj, toNat_u256]
    rfl
  rw [Ethereum.deadline]
  cases t with
  | none => rfl
  | some n =>
    rw [Option.getD_some, Option.map_some, toNat_u256]
    by_cases hn : n.toNat = 0
    · rw [if_pos ((hzero n).mpr hn), hn]
      rfl
    · rw [if_neg (mt (hzero n).mp hn), TimeLock.filter_eq_some.mpr ⟨rfl, hn⟩]

variable {c} {finishAfter cancelAfter : Option UInt64} {condition : FixedBytes 32}

theorem Valid.onSolana_iff (hc : c.Valid) :
    (∃ r, c.onSolana finishAfter cancelAfter condition = .ok r) ↔
      (timeLock finishAfter cancelAfter).Admissible (condition ≠ Solana.noCondition) := by
  have hargs := Solana.validateArgs_iff_admissible c.runtime c.sender c.recipient
    ⟨c.id, c.amount, finishAfter, cancelAfter, condition⟩
  constructor
  · rintro ⟨⟨accounts, e⟩, h⟩
    obtain ⟨-, -, -, hvalid, -⟩ := Solana.createEscrow_eq_ok.mp h
    exact (hargs.mp hvalid).1
  · intro h
    obtain ⟨initialized, funded, hinit, hfund⟩ := hc.paid
    refine ⟨(_, _), Solana.createEscrow_eq_ok.mpr ⟨hc.signed, rfl, hc.distinct, ?_, hc.vacant,
      initialized, funded, hinit, hfund, rfl, rfl⟩⟩
    exact hargs.mpr ⟨h, hc.amount⟩

theorem timeLock_newEscrow (msg : Ethereum.Msg) (payee : Ethereum.Address)
    (conditionId : Ethereum.Word) :
    (Ethereum.newEscrow msg payee (u256 (finishAfter.getD 0)) (u256 (cancelAfter.getD 0))
      conditionId).timeLock = (timeLock finishAfter cancelAfter).dropZeros := by
  rw [Ethereum.EscrowDB.timeLock, Ethereum.newEscrow, deadline_u256, deadline_u256]
  rfl

theorem Valid.onEthereum_iff (hc : c.Valid) :
    (∃ r, c.onEthereum finishAfter cancelAfter condition = .ok r) ↔
      (timeLock finishAfter cancelAfter).dropZeros.Admissible (condition ≠ Solana.noCondition) := by
  have hcondition : b256 condition ≠ 0 ↔ condition ≠ Solana.noCondition :=
    not_congr (b256_inj (c := Solana.noCondition))
  rw [← timeLock_newEscrow c.msg c.payee (b256 condition), ← hcondition,
    Ethereum.EscrowDB.admissible_iff]
  constructor
  · rintro ⟨⟨s, e⟩, h⟩
    obtain ⟨-, -, hpath, hrefundable, hordered, -⟩ := Ethereum.createEscrow_eq_ok.mp h
    exact ⟨hpath, hrefundable, hordered⟩
  · rintro ⟨hpath, hrefundable, hordered⟩
    exact ⟨(_, _), Ethereum.createEscrow_eq_ok.mpr ⟨hc.payee, hc.value, hpath, hrefundable,
      hordered, hc.issuable, rfl, rfl⟩⟩

/-- What both have accepted opens and closes together: only a second deadline at zero would not, and
the Solana program refuses it. -/
theorem windows_agree (accounts : Solana.Accounts) (e : Solana.EscrowEvent) (s : Ethereum.Storage)
    (e' : Ethereum.Event) (hS : c.onSolana finishAfter cancelAfter condition = .ok (accounts, e))
    (hE : c.onEthereum finishAfter cancelAfter condition = .ok (s, e')) :
    ∃ escrow, (accounts c.address).data = some escrow ∧ ∀ n,
      (escrow.timeLock.FinishOpen n ↔ (s.escrows s.nextEscrowId).timeLock.FinishOpen n) ∧
      (escrow.timeLock.CancelOpen n ↔ (s.escrows s.nextEscrowId).timeLock.CancelOpen n) := by
  obtain ⟨-, -, -, hvalid, -, _, _, -, -, rfl, -⟩ := Solana.createEscrow_eq_ok.mp hS
  obtain ⟨-, -, -, -, -, -, rfl, -⟩ := Ethereum.createEscrow_eq_ok.mp hE
  refine ⟨_, by rw [Solana.Accounts.setData, Function.update_self], fun n ↦ ?_⟩
  have hadmissible :=
    (Solana.validateArgs_iff_admissible c.runtime c.sender c.recipient _).mp hvalid
  rw [Ethereum.Storage.issue_nextEscrowId, Ethereum.Storage.issue_escrows_self, timeLock_newEscrow]
  exact ⟨TimeLock.dropZeros_finishOpen.symm,
    (TimeLock.dropZeros_cancelOpen hadmissible.1.cancelAfter_ne).symm⟩

theorem loneZero_iff : (timeLock finishAfter cancelAfter).LoneZero ↔
    (finishAfter = some 0 ∧ cancelAfter = none) ∨
      ((∃ t, finishAfter = some t ∧ t ≠ 0) ∧ cancelAfter = some 0) := by
  have hzero (n : UInt64) : n.toNat = 0 ↔ n = 0 := UInt64.toNat_inj (b := 0)
  simp only [TimeLock.LoneZero, timeLock, Option.map_eq_some_iff, Option.map_eq_none_iff,
    exists_exists_and_eq_and, hzero, ne_eq, exists_eq_right]

/-- **When the time locks of the two chains agree.** With the other arguments valid, the two agents
treat a pair of deadlines and a condition alike except where a zero makes a difference: an
unconditioned escrow whose only deadline is zero, or whose second one is, after another. -/
theorem agree_iff (hc : c.Valid) (finishAfter cancelAfter : Option UInt64)
    (condition : FixedBytes 32) : c.Agree finishAfter cancelAfter condition ↔
      ¬(condition = Solana.noCondition ∧
        ((finishAfter = some 0 ∧ cancelAfter = none) ∨
          ((∃ t, finishAfter = some t ∧ t ≠ 0) ∧ cancelAfter = some 0))) := by
  have haccepted := (timeLock finishAfter cancelAfter).dropZeros_admissible_iff
    (condition ≠ Solana.noCondition)
  rw [← hc.onSolana_iff, ← hc.onEthereum_iff, not_not, loneZero_iff] at haccepted
  rw [← haccepted]
  constructor
  · intro h
    exact h.accepted
  · intro h
    exact ⟨h, windows_agree⟩

/-- Two creations in empty worlds. -/
def sample : CreationSite where
  runtime := .sample
  sender := Solana.sampleEscrow.sender
  recipient := Solana.sampleEscrow.recipient
  id := Solana.sampleEscrow.id
  amount := Solana.sampleEscrow.amount
  accounts _ := ⟨10000000, none⟩
  msg := ⟨1, 5, 0, 0⟩
  payee := 2
  storage := .init

theorem valid_sample : sample.Valid where
  signed := by decide
  distinct := by decide
  amount := by decide
  vacant := rfl
  paid := by
    refine ⟨_, _, Solana.systemTransfer_eq_ok.mpr ⟨rfl, ?_, ?_, rfl⟩,
      Solana.systemTransfer_eq_ok.mpr ⟨?_, ?_, ?_, rfl⟩⟩
    all_goals decide +kernel
  payee := by decide
  value := by decide
  issuable := by decide

/-- With ordered deadlines the agents agree. -/
theorem agree_iff_sample : sample.Agree (some 0) (some 10) Solana.noCondition :=
  (agree_iff valid_sample (some 0) (some 10) Solana.noCondition).mpr (by decide)

/-- The lone zeros: one agent accepts what the other refuses. -/
theorem not_agree :
    sample.Valid ∧
      ((∃ r, sample.onSolana (some 0) none Solana.noCondition = .ok r) ∧
        ¬∃ r, sample.onEthereum (some 0) none Solana.noCondition = .ok r) ∧
      (¬∃ r, sample.onSolana (some 5) (some 0) Solana.noCondition = .ok r) ∧
        ∃ r, sample.onEthereum (some 5) (some 0) Solana.noCondition = .ok r := by
  have hfirst : (timeLock (some 0) none).Admissible (Solana.noCondition ≠ Solana.noCondition) := by
    rw [TimeLock.admissible_iff]
    simp [timeLock, TimeLock.Ordered]
  have hsecond : (timeLock (some 5) (some 0)).dropZeros.Admissible
      (Solana.noCondition ≠ Solana.noCondition) := by
    rw [TimeLock.admissible_iff, TimeLock.dropZeros_ordered]
    simp [timeLock, TimeLock.dropZeros]
  rw [valid_sample.onSolana_iff, valid_sample.onEthereum_iff, valid_sample.onSolana_iff,
    valid_sample.onEthereum_iff]
  refine ⟨valid_sample, ⟨hfirst, fun h ↦ ?_⟩, fun h ↦ h.cancelAfter_ne rfl, hsecond⟩
  rcases h.path with hpath | hpath
  · exact hpath rfl
  · exact hpath rfl

end CreationSite

end Zescrow
