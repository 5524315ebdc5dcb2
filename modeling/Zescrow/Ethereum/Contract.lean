import Zescrow.Foundation.Parser

/-!
# The EVM escrow contract

`Escrow.sol` function by function. Words are 256 bits and addresses 160 bits wide, so `bytes32` and
`uint256`, and `address` and `uint160`, are converted by doing nothing. A reverting call is an
`Except.error`; arithmetic is checked, and an index past the end of calldata is a panic.

`finishEscrow` and `cancelEscrow` end in an external call. What they do before it is `beginFinish`
and `beginCancel`, which return the transfer to make; what follows it, clearing the reentrancy
guard, belongs to the machine that runs the contract.
-/

open Foundation

namespace Zescrow.Ethereum

abbrev Word := BitVec 256

abbrev Address := BitVec 160

/-- How a call can revert: the contract's errors, those of the reentrancy guard and of the call
that the verifier refuses, a value sent to a function that is not payable, and compiler panics. -/
inductive Revert where
  | invalidRecipient
  | insufficientValue
  | timeLockUnset
  | conditionRequiresCancel
  | invalidTimeOrder
  | escrowNotExists
  | onlyRecipient
  | onlySender
  | alreadySettled
  | tooEarlyToFinish
  | tooEarlyToCancel
  | cancelDisabled
  | malformedJournal
  | journalBindingMismatch
  | reentrancyGuardReentrantCall
  | verifierReverted
  | nonPayable
  | panic (code : ℕ)
  deriving DecidableEq

/-- Arithmetic overflow. -/
def Revert.overflow : Revert := .panic 0x11

/-- Index out of bounds. -/
def Revert.outOfBounds : Revert := .panic 0x32

/-- A single escrow's state. -/
structure EscrowDB where
  sender : Address
  recipient : Address
  amount : Word
  finishAfter : Word
  cancelAfter : Word
  conditionId : Word
  settled : Bool
  deriving DecidableEq

/-- What a storage slot that was never written holds. -/
def EscrowDB.unset : EscrowDB := ⟨0, 0, 0, 0, 0, 0, false⟩

/-- The contract's storage, with the status of its reentrancy guard. -/
structure Storage where
  nextEscrowId : Word
  escrows : Word → EscrowDB
  entered : Bool

/-- The storage after deployment. -/
def Storage.init : Storage := ⟨0, fun _ ↦ .unset, false⟩

inductive Event where
  | escrowCreated (escrowId : Word) (sender recipient : Address)
      (amount finishAfter cancelAfter conditionId : Word)
  | escrowFinished (escrowId : Word) (recipient : Address) (amount : Word)
  | escrowCancelled (escrowId : Word) (sender : Address) (amount : Word)
  deriving DecidableEq

/-- A deployed contract: its address, its immutables, and what it calls. The constructor rejects a
zero verifier and a zero image id. The verifier is an upgradeable router: whether a call to it
returns may differ from one moment to the next. -/
structure Deployment where
  self : Address
  verifier : Address
  imageId : Word
  verifier_ne_zero : verifier ≠ 0
  imageId_ne_zero : imageId ≠ 0
  /-- Whether `verify(seal, imageId, digest)` returns, at some moment. -/
  verify : ℕ → Bytes → Word → FixedBytes 32 → Bool
  sha256 : Bytes → FixedBytes 32

/-- The message of a call, with the block and the moment it runs at. -/
structure Msg where
  sender : Address
  value : Word
  block : ℕ
  moment : ℕ
  deriving DecidableEq

/-! ## The journal check -/

def checkedAdd (a b : ℕ) : Except Revert ℕ := do
  ensure (a + b < 2 ^ 256) .overflow
  .ok (a + b)

/-- The loop of both readers: `k` bytes from index `i` on, shifted into `acc`. -/
def accumulate {w : ℕ} (journal : Bytes) (i : ℕ) : ℕ → BitVec w → Except Revert (BitVec w)
  | 0, acc => .ok acc
  | k + 1, acc =>
    match journal[i]? with
    | none => .error .outOfBounds
    | some b => accumulate journal (i + 1) k ((acc <<< 8) ||| BitVec.ofNat w b.toNat)

/-- Bounds check and loop: `n` bytes into an accumulator of `w` bits. -/
def readUint (w n : ℕ) : Parser Revert (BitVec w) := fun c ↦ do
  let next ← checkedAdd c.offset n
  ensure (next ≤ c.bytes.length) .malformedJournal
  let acc ← accumulate c.bytes c.offset n 0
  .ok (acc, { c with offset := next })

/-- Read `n` (at most 32) big-endian bytes as a `uint256`. -/
def readBE (n : ℕ) : Parser Revert Word := readUint 256 n

/-- Read a length-prefixed field declared as a 20-byte address. -/
def readAddress : Parser Revert Address := do
  let len ← readBE 2
  Parser.check (len = 20) .malformedJournal
  readUint 160 20

/-- The parser `_checkJournalBinding` runs over the journal. -/
def readJournalBinding (self : Address) (escrow : EscrowDB) (escrowId : Word) :
    Parser Revert Unit := do
  let value ← readBE 1
  Parser.check (value = 1) .malformedJournal
  let value ← readBE 1
  Parser.check (value = 0) .malformedJournal
  let value ← readBE 1
  Parser.check (value = 1) .malformedJournal
  let value ← readBE 1
  Parser.check (value = 2) .malformedJournal
  let agent ← readAddress
  Parser.check (agent = self) .journalBindingMismatch
  let value ← readBE 8
  Parser.check (value = escrowId) .journalBindingMismatch
  let party ← readAddress
  Parser.check (party = escrow.sender) .journalBindingMismatch
  let party ← readAddress
  Parser.check (party = escrow.recipient) .journalBindingMismatch
  let value ← readBE 1
  Parser.check (value = 0) .malformedJournal
  let value ← readBE 2
  Parser.check (value = 0) .malformedJournal
  let value ← readBE 32
  Parser.check (value = escrow.amount) .journalBindingMismatch
  let value ← readBE 32
  Parser.check (value = escrow.conditionId) .journalBindingMismatch
  Parser.finish fun _ ↦ .malformedJournal

/-- Parse the canonical journal and require every binding field to match this escrow. -/
def checkJournalBinding (self : Address) (escrow : EscrowDB) (escrowId : Word) (journal : Bytes) :
    Except Revert Unit :=
  (readJournalBinding self escrow escrowId).parse journal

/-! ## The three operations -/

/-- An ETH transfer the contract is about to make. -/
structure Transfer where
  payee : Address
  amount : Word
  deriving DecidableEq

/-- The record a creation writes. -/
def newEscrow (msg : Msg) (recipient : Address) (finishAfter cancelAfter conditionId : Word) :
    EscrowDB :=
  ⟨msg.sender, recipient, msg.value, finishAfter, cancelAfter, conditionId, false⟩

section

variable (D : Deployment) (msg : Msg)

/-- Create a new escrow funded by `msg.value`. -/
def createEscrow (recipient : Address) (finishAfter cancelAfter conditionId : Word) (s : Storage) :
    Except Revert (Storage × Event) := do
  ensure (recipient ≠ 0) .invalidRecipient
  ensure (msg.value ≠ 0) .insufficientValue
  ensure (¬(finishAfter = 0 ∧ cancelAfter = 0)) .timeLockUnset
  ensure (¬(conditionId ≠ 0 ∧ cancelAfter = 0)) .conditionRequiresCancel
  ensure (¬(finishAfter ≠ 0 ∧ cancelAfter ≠ 0 ∧ cancelAfter.toNat ≤ finishAfter.toNat))
    .invalidTimeOrder
  let next ← checkedAdd s.nextEscrowId.toNat 1
  let escrowId := BitVec.ofNat 256 next
  let escrow := newEscrow msg recipient finishAfter cancelAfter conditionId
  .ok ({ s with nextEscrowId := escrowId, escrows := Function.update s.escrows escrowId escrow },
    .escrowCreated escrowId msg.sender recipient msg.value finishAfter cancelAfter conditionId)

/-- The modifier `nonReentrant` up to the function body. -/
def nonReentrantBefore (s : Storage) : Except Revert Storage := do
  ensure (s.entered = false) .reentrancyGuardReentrantCall
  .ok { s with entered := true }

/-- The modifier `nonReentrant` after the function body. -/
def nonReentrantAfter (s : Storage) : Storage := { s with entered := false }

/-- Check the journal binds to this escrow, then verify the seal over `sha256(journal)`. -/
def verifyReceipt (escrow : EscrowDB) (escrowId : Word) (receiptSeal journal : Bytes) :
    Except Revert Unit := do
  checkJournalBinding D.self escrow escrowId journal
  ensure (D.verify msg.moment receiptSeal D.imageId (D.sha256 journal)) .verifierReverted

/-- The record of a settled escrow. -/
def EscrowDB.settle (escrow : EscrowDB) : EscrowDB := { escrow with settled := true, amount := 0 }

/-- `finishEscrow` up to the transfer. -/
def beginFinish (escrowId : Word) (receiptSeal journal : Bytes) (s : Storage) :
    Except Revert (Storage × Event × Transfer) := do
  ensure (msg.value = 0) .nonPayable
  let s ← nonReentrantBefore s
  let escrow := s.escrows escrowId
  ensure (escrow.sender ≠ 0) .escrowNotExists
  ensure (msg.sender = escrow.recipient) .onlyRecipient
  ensure (escrow.settled = false) .alreadySettled
  ensure (¬(escrow.finishAfter ≠ 0 ∧ msg.block < escrow.finishAfter.toNat)) .tooEarlyToFinish
  (if escrow.conditionId ≠ 0 then verifyReceipt D msg escrow escrowId receiptSeal journal
    else .ok () : Except Revert Unit)
  let payout := escrow.amount
  .ok ({ s with escrows := Function.update s.escrows escrowId escrow.settle },
    .escrowFinished escrowId escrow.recipient payout, ⟨escrow.recipient, payout⟩)

/-- `cancelEscrow` up to the transfer. -/
def beginCancel (escrowId : Word) (s : Storage) :
    Except Revert (Storage × Event × Transfer) := do
  ensure (msg.value = 0) .nonPayable
  let s ← nonReentrantBefore s
  let escrow := s.escrows escrowId
  ensure (escrow.sender ≠ 0) .escrowNotExists
  ensure (msg.sender = escrow.sender) .onlySender
  ensure (escrow.settled = false) .alreadySettled
  ensure (escrow.cancelAfter ≠ 0) .cancelDisabled
  ensure (¬msg.block < escrow.cancelAfter.toNat) .tooEarlyToCancel
  let refund := escrow.amount
  .ok ({ s with escrows := Function.update s.escrows escrowId escrow.settle },
    .escrowCancelled escrowId escrow.sender refund, ⟨escrow.sender, refund⟩)

end

/-! ## What the operations do -/

theorem checkedAdd_eq_ok {a b r : ℕ} : checkedAdd a b = .ok r ↔ a + b < 2 ^ 256 ∧ r = a + b := by
  rw [checkedAdd, ensure_bind_eq_ok, Except.ok.injEq, eq_comm (a := r)]

/-- The storage after `escrow` was given the next id. -/
def Storage.issue (s : Storage) (escrow : EscrowDB) : Storage :=
  { s with
    nextEscrowId := s.nextEscrowId + 1
    escrows := Function.update s.escrows (s.nextEscrowId + 1) escrow }

@[simp] theorem Storage.issue_nextEscrowId (s : Storage) (escrow : EscrowDB) :
    (s.issue escrow).nextEscrowId = s.nextEscrowId + 1 := rfl

@[simp] theorem Storage.issue_escrows_self (s : Storage) (escrow : EscrowDB) :
    (s.issue escrow).escrows (s.nextEscrowId + 1) = escrow := Function.update_self ..

theorem Storage.issue_escrows_of_ne {s : Storage} {escrow : EscrowDB} {i : Word}
    (h : i ≠ s.nextEscrowId + 1) : (s.issue escrow).escrows i = s.escrows i :=
  Function.update_of_ne h ..

theorem createEscrow_eq_ok {msg : Msg} {recipient : Address}
    {finishAfter cancelAfter conditionId : Word} {s s' : Storage} {e : Event} :
    createEscrow msg recipient finishAfter cancelAfter conditionId s = .ok (s', e) ↔
      recipient ≠ 0 ∧ msg.value ≠ 0 ∧ ¬(finishAfter = 0 ∧ cancelAfter = 0) ∧
      ¬(conditionId ≠ 0 ∧ cancelAfter = 0) ∧
      ¬(finishAfter ≠ 0 ∧ cancelAfter ≠ 0 ∧ cancelAfter.toNat ≤ finishAfter.toNat) ∧
      s.nextEscrowId.toNat + 1 < 2 ^ 256 ∧
      s' = s.issue (newEscrow msg recipient finishAfter cancelAfter conditionId) ∧
      e = .escrowCreated (s.nextEscrowId + 1) msg.sender recipient msg.value finishAfter
        cancelAfter conditionId := by
  have hnext : BitVec.ofNat 256 (s.nextEscrowId.toNat + 1) = s.nextEscrowId + 1 := by
    rw [BitVec.ofNat_add, BitVec.ofNat_toNat, BitVec.setWidth_eq]
    rfl
  simp only [createEscrow, ensure_bind_eq_ok]
  simp only [bind_eq_ok, checkedAdd_eq_ok]
  constructor
  · rintro ⟨h₁, h₂, h₃, h₄, h₅, next, ⟨hlt, rfl⟩, hres⟩
    rw [hnext] at hres
    obtain ⟨rfl, rfl⟩ := Prod.mk.inj (Except.ok.inj hres)
    exact ⟨h₁, h₂, h₃, h₄, h₅, hlt, rfl, rfl⟩
  · rintro ⟨h₁, h₂, h₃, h₄, h₅, hlt, rfl, rfl⟩
    refine ⟨h₁, h₂, h₃, h₄, h₅, _, ⟨hlt, rfl⟩, ?_⟩
    rw [hnext]
    rfl

theorem nonReentrantBefore_eq_ok {s s' : Storage} :
    nonReentrantBefore s = .ok s' ↔ s.entered = false ∧ s' = { s with entered := true } := by
  rw [nonReentrantBefore, ensure_bind_eq_ok, Except.ok.injEq, eq_comm (a := s')]

theorem verifyReceipt_eq_ok {D : Deployment} {msg : Msg} {escrow : EscrowDB} {escrowId : Word}
    {receiptSeal journal : Bytes} :
    verifyReceipt D msg escrow escrowId receiptSeal journal = .ok () ↔
      checkJournalBinding D.self escrow escrowId journal = .ok () ∧
        D.verify msg.moment receiptSeal D.imageId (D.sha256 journal) = true := by
  rw [verifyReceipt, bind_eq_ok]
  simp only [ensure_eq_ok]
  constructor
  · rintro ⟨_, h⟩
    exact h
  · intro h
    exact ⟨(), h⟩

/-- What lets `finishEscrow` release the record `escrow`. -/
structure FinishAllowed (D : Deployment) (msg : Msg) (escrowId : Word) (receiptSeal journal : Bytes)
    (escrow : EscrowDB) : Prop where
  exists_ : escrow.sender ≠ 0
  caller : msg.sender = escrow.recipient
  unsettled : escrow.settled = false
  time : escrow.finishAfter.toNat ≤ msg.block
  proof : escrow.conditionId ≠ 0 →
    checkJournalBinding D.self escrow escrowId journal = .ok () ∧
      D.verify msg.moment receiptSeal D.imageId (D.sha256 journal) = true

/-- What lets `cancelEscrow` refund the record `escrow`. -/
structure CancelAllowed (msg : Msg) (escrow : EscrowDB) : Prop where
  exists_ : escrow.sender ≠ 0
  caller : msg.sender = escrow.sender
  unsettled : escrow.settled = false
  enabled : escrow.cancelAfter ≠ 0
  time : escrow.cancelAfter.toNat ≤ msg.block

/-- The storage while the payout of `escrowId` is being made. -/
def Storage.settling (s : Storage) (escrowId : Word) : Storage :=
  { s with
    escrows := Function.update s.escrows escrowId (s.escrows escrowId).settle
    entered := true }

@[simp] theorem Storage.settling_escrows_self (s : Storage) (i : Word) :
    (s.settling i).escrows i = (s.escrows i).settle := Function.update_self ..

theorem Storage.settling_escrows_of_ne {s : Storage} {i j : Word} (h : j ≠ i) :
    (s.settling i).escrows j = s.escrows j := Function.update_of_ne h ..

theorem not_early_iff {t : Word} {n : ℕ} : ¬(t ≠ 0 ∧ n < t.toNat) ↔ t.toNat ≤ n := by
  constructor
  · intro h
    by_contra hlt
    refine h ⟨?_, Nat.lt_of_not_le hlt⟩
    rintro rfl
    exact hlt (Nat.zero_le n)
  · rintro h ⟨-, hlt⟩
    exact absurd h (Nat.not_le.mpr hlt)

theorem beginFinish_eq_ok {D : Deployment} {msg : Msg} {escrowId : Word}
    {receiptSeal journal : Bytes} {s s' : Storage} {e : Event} {t : Transfer} :
    beginFinish D msg escrowId receiptSeal journal s = .ok (s', e, t) ↔
      msg.value = 0 ∧ s.entered = false ∧
      FinishAllowed D msg escrowId receiptSeal journal (s.escrows escrowId) ∧
      s' = s.settling escrowId ∧
      t = ⟨(s.escrows escrowId).recipient, (s.escrows escrowId).amount⟩ ∧
      e = .escrowFinished escrowId t.payee t.amount := by
  rw [beginFinish, ensure_bind_eq_ok, bind_eq_ok]
  simp only [nonReentrantBefore_eq_ok, ensure_bind_eq_ok, not_early_iff]
  simp only [bind_eq_ok]
  constructor
  · rintro ⟨hvalue, _, ⟨hentered, rfl⟩, hexists, hcaller, hunsettled, htime, ⟨⟩, hproof, hres⟩
    obtain ⟨rfl, hrest⟩ := Prod.mk.inj (Except.ok.inj hres)
    obtain ⟨rfl, rfl⟩ := Prod.mk.inj hrest
    refine ⟨hvalue, hentered, ⟨hexists, hcaller, hunsettled, htime, fun hcond ↦ ?_⟩, rfl, rfl, rfl⟩
    rw [if_pos hcond] at hproof
    exact verifyReceipt_eq_ok.mp hproof
  · rintro ⟨hvalue, hentered, h, rfl, rfl, rfl⟩
    refine ⟨hvalue, _, ⟨hentered, rfl⟩, h.exists_, h.caller, h.unsettled, h.time, (), ?_, rfl⟩
    split
    · next hcond => exact verifyReceipt_eq_ok.mpr (h.proof hcond)
    · rfl

theorem beginCancel_eq_ok {msg : Msg} {escrowId : Word} {s s' : Storage} {e : Event}
    {t : Transfer} : beginCancel msg escrowId s = .ok (s', e, t) ↔
      msg.value = 0 ∧ s.entered = false ∧ CancelAllowed msg (s.escrows escrowId) ∧
      s' = s.settling escrowId ∧
      t = ⟨(s.escrows escrowId).sender, (s.escrows escrowId).amount⟩ ∧
      e = .escrowCancelled escrowId t.payee t.amount := by
  rw [beginCancel, ensure_bind_eq_ok, bind_eq_ok]
  simp only [nonReentrantBefore_eq_ok, ensure_bind_eq_ok, Nat.not_lt]
  constructor
  · rintro ⟨hvalue, _, ⟨hentered, rfl⟩, hexists, hcaller, hunsettled, henabled, htime, hres⟩
    obtain ⟨rfl, hrest⟩ := Prod.mk.inj (Except.ok.inj hres)
    obtain ⟨rfl, rfl⟩ := Prod.mk.inj hrest
    exact ⟨hvalue, hentered, ⟨hexists, hcaller, hunsettled, henabled, htime⟩, rfl, rfl, rfl⟩
  · rintro ⟨hvalue, hentered, h, rfl, rfl, rfl⟩
    exact ⟨hvalue, _, ⟨hentered, rfl⟩, h.exists_, h.caller, h.unsettled, h.enabled, h.time, rfl⟩

end Zescrow.Ethereum
