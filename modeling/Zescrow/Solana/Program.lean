import Zescrow.Core.JournalCodec
import Zescrow.Solana.Router

/-!
# The Solana escrow program

`lib.rs` of the escrow program, handler by handler, over a map from addresses to accounts. What
Anchor derives from the account structs is written out at the start of each handler: the signer, the
seeds of the escrow account, its initialization and its closing. Lamports are counted in natural
numbers and every addition to a balance is checked against 64 bits.

The address derivation, the rent reserves, the ability to sign and the decision of the verifier
router belong to the chain and are collected in `Runtime`, together with the image id that the
program pins: the repository has a placeholder for it.
-/

open Foundation

namespace Zescrow.Solana

abbrev Pubkey := FixedBytes 32

/-- The address of the escrow program. -/
def programId : Pubkey :=
  ⟨[0xfd, 0x78, 0x70, 0x1b, 0x2f, 0xe7, 0x24, 0xca, 0x5f, 0xae, 0xdb, 0xfb, 0xb3, 0x3e, 0x20, 0x05,
    0xa9, 0x84, 0xb5, 0x3b, 0x41, 0xe9, 0xdb, 0xa8, 0x1a, 0xff, 0x89, 0xcc, 0x1c, 0x98, 0x54, 0x64],
    rfl⟩

/-- The verifier router proof checking is delegated to. -/
def verifierRouterId : Pubkey :=
  ⟨[0x4e, 0xe1, 0x85, 0x7d, 0x28, 0x42, 0x4d, 0xd6, 0x09, 0xfc, 0x40, 0x35, 0x6c, 0xe6, 0x75, 0x9e,
    0xad, 0x49, 0xaf, 0xa7, 0x06, 0x65, 0x0e, 0x36, 0x01, 0xe2, 0x46, 0x61, 0x55, 0xcd, 0x0a, 0x94],
    rfl⟩

/-- The image id in the repository. No guest has it, so nothing is released until the program pins
another one. -/
def imageId : FixedBytes 32 := .zero 32

/-- The sentinel of an unconditioned escrow. -/
def noCondition : FixedBytes 32 := .zero 32

/-- Escrow account data. -/
structure EscrowAccount where
  sender : Pubkey
  recipient : Pubkey
  amount : UInt64
  id : UInt64
  finishAfter : Option UInt64
  cancelAfter : Option UInt64
  condition : FixedBytes 32
  bump : UInt8
  deriving DecidableEq

/-! ## The journal -/

def journalVersion : UInt8 := 1
def chainSolana : UInt8 := 1
def outcomeSuccess : UInt8 := 1
def stateConditionsMet : UInt8 := 2
def assetNative : UInt8 := 0

/-- Reconstructs the binding journal for a met, native-coin escrow. -/
def reconstructJournal (escrow : EscrowAccount) : Bytes :=
  let amount := List.replicate (32 - 8) 0 ++ toBE 8 escrow.amount.toNat
  let pubkeyLen := toBE 2 32
  let emptyLen := toBE 2 0
  [journalVersion, chainSolana, outcomeSuccess, stateConditionsMet]
    ++ pubkeyLen ++ programId.1
    ++ toBE 8 escrow.id.toNat
    ++ pubkeyLen ++ escrow.sender.1
    ++ pubkeyLen ++ escrow.recipient.1
    ++ [assetNative]
    ++ emptyLen
    ++ amount
    ++ escrow.condition.1

/-- The instruction data of the router call in a program that pins `imageId`. The seal is spliced in
as it was passed. -/
def releaseProofData (sha256 : Bytes → FixedBytes 32) (imageId : FixedBytes 32)
    (escrow : EscrowAccount) (receiptSeal : Bytes) : Bytes :=
  let journalDigest := sha256 (reconstructJournal escrow)
  verifyDiscriminator sha256 ++ receiptSeal ++ imageId.1 ++ journalDigest.1

/-! ## Accounts -/

/-- An account: its balance, and its data when it is an escrow account. -/
structure Account where
  lamports : ℕ
  data : Option EscrowAccount

abbrev Accounts := Pubkey → Account

/-- An account that an instruction names, and what the transaction allows of it. -/
structure AccountMeta where
  pubkey : Pubkey
  isSigner : Bool
  isWritable : Bool
  deriving DecidableEq

/-- An account that may be written to. -/
def AccountMeta.new (pubkey : Pubkey) (isSigner : Bool) : AccountMeta := ⟨pubkey, isSigner, true⟩

def AccountMeta.newReadonly (pubkey : Pubkey) (isSigner : Bool) : AccountMeta :=
  ⟨pubkey, isSigner, false⟩

/-- What the program takes from the chain it runs on, and the image id it was built with. -/
structure Runtime where
  sha256 : Bytes → FixedBytes 32
  /-- The pinned guest image id. -/
  imageId : FixedBytes 32
  /-- The canonical program-derived address of some seeds, with its bump. -/
  findProgramAddress : List Bytes → Pubkey × UInt8
  /-- The address of seeds that include the bump. -/
  createProgramAddress : List Bytes → Option Pubkey
  createProgramAddress_find : ∀ seeds,
    createProgramAddress (seeds ++ [[(findProgramAddress seeds).2]])
      = some (findProgramAddress seeds).1
  /-- Someone can sign for the address, which is never so for one derived for this program. -/
  canSign : Pubkey → Bool
  not_canSign_find : ∀ seeds, canSign (findProgramAddress seeds).1 = false
  /-- The reserve that makes an escrow account exempt from rent. -/
  rentReserve : ℕ
  /-- The reserve of an account without data, which takes no more. -/
  walletReserve : ℕ
  walletReserve_le : walletReserve ≤ rentReserve
  /-- What the router decides on arguments, at some moment, with some accounts. -/
  router : ℕ → List AccountMeta → VerifyArgs → Bool

/-- The program's own errors, and those of Anchor and the system program on its way. -/
inductive ProgramError where
  | invalidAmount
  | mustSpecifyPath
  | invalidTimeOrder
  | invalidRecipient
  | unauthorized
  | notReady
  | cancelNotAllowed
  | notExpired
  | proofVerificationFailed
  | arithmeticOverflow
  | conditionRequiresCancel
  | missingSignature
  | constraintSeeds
  | constraintAddress
  | accountAlreadyInUse
  | accountNotInitialized
  | insufficientFunds
  | fromMustNotCarryData
  deriving DecidableEq

inductive EscrowState where
  | created
  | finished
  | cancelled
  deriving DecidableEq

structure EscrowEvent where
  id : UInt64
  sender : Pubkey
  recipient : Pubkey
  amount : UInt64
  action : EscrowState
  deriving DecidableEq

def EscrowAccount.event (escrow : EscrowAccount) (action : EscrowState) : EscrowEvent :=
  ⟨escrow.id, escrow.sender, escrow.recipient, escrow.amount, action⟩

structure CreateEscrowArgs where
  id : UInt64
  amount : UInt64
  finishAfter : Option UInt64
  cancelAfter : Option UInt64
  condition : FixedBytes 32
  deriving DecidableEq

/-- Changes a balance. -/
def Accounts.setLamports (accounts : Accounts) (a : Pubkey) (lamports : ℕ) : Accounts :=
  Function.update accounts a { accounts a with lamports := lamports }

/-- Changes the data of an account. -/
def Accounts.setData (accounts : Accounts) (a : Pubkey) (data : Option EscrowAccount) : Accounts :=
  Function.update accounts a { accounts a with data := data }

/-- `checked_add` of a balance. -/
def addLamports (a b : ℕ) : Except ProgramError ℕ := do
  ensure (a + b < 2 ^ 64) .arithmeticOverflow
  .ok (a + b)

/-- A transfer by the system program. -/
def systemTransfer (source destination : Pubkey) (lamports : ℕ) (accounts : Accounts) :
    Except ProgramError Accounts := do
  ensure ((accounts source).data = none) .fromMustNotCarryData
  ensure (lamports ≤ (accounts source).lamports) .insufficientFunds
  let debited := accounts.setLamports source ((accounts source).lamports - lamports)
  let credited ← addLamports (debited destination).lamports lamports
  .ok (debited.setLamports destination credited)

/-- The seeds of an escrow account. -/
def escrowSeeds (sender recipient : Pubkey) (id : UInt64) : List Bytes :=
  [ascii "escrow", sender.1, recipient.1, toLE 8 id.toNat]

section

variable (R : Runtime)

/-- Anchor's `init`: the payer tops the account up to the rent reserve. -/
def initAccount (payer a : Pubkey) (accounts : Accounts) : Except ProgramError Accounts := do
  ensure ((accounts a).data = none) .accountAlreadyInUse
  systemTransfer payer a (R.rentReserve - (accounts a).lamports) accounts

/-- Anchor's `close`: the balance goes to `destination` and the data is gone. -/
def closeAccount (a destination : Pubkey) (accounts : Accounts) : Except ProgramError Accounts := do
  let credited ← addLamports (accounts destination).lamports (accounts a).lamports
  .ok (((accounts.setLamports destination credited).setLamports a 0).setData a none)

/-- Reads the escrow account at an address. -/
def loadEscrow (a : Pubkey) (accounts : Accounts) : Except ProgramError EscrowAccount :=
  match (accounts a).data with
  | none => .error .accountNotInitialized
  | some escrow => .ok escrow

/-- Verifies a conditioned escrow's release proof via the pinned router. -/
def verifyReleaseProof (moment : ℕ) (escrow : EscrowAccount) (routerAccounts : List AccountMeta)
    (receiptSeal : Bytes) : Except ProgramError Unit :=
  ensure (routerVerify R.sha256 (R.router moment routerAccounts)
    (releaseProofData R.sha256 R.imageId escrow receiptSeal) ≠ none) .proofVerificationFailed

/-! ## The handlers -/

/-- The account data a creation writes. -/
def newEscrow (sender recipient : Pubkey) (args : CreateEscrowArgs) : EscrowAccount where
  sender := sender
  recipient := recipient
  amount := args.amount
  id := args.id
  finishAfter := args.finishAfter
  cancelAfter := args.cancelAfter
  condition := args.condition
  bump := (R.findProgramAddress (escrowSeeds sender recipient args.id)).2

/-- The checks `create_escrow` makes on its arguments. -/
def validateArgs (args : CreateEscrowArgs) : Except ProgramError Unit := do
  ensure (args.finishAfter.isSome ∨ args.cancelAfter.isSome) .mustSpecifyPath
  ensure (args.condition = noCondition ∨ args.cancelAfter.isSome) .conditionRequiresCancel
  (match args.cancelAfter with
    | some cancel => ensure (args.finishAfter.getD 0 < cancel) .invalidTimeOrder
    | none => .ok () : Except ProgramError Unit)
  ensure (0 < args.amount) .invalidAmount

/-- Creates and funds a new escrow. -/
def createEscrow (sender recipient escrowAccount : Pubkey) (args : CreateEscrowArgs)
    (accounts : Accounts) : Except ProgramError (Accounts × EscrowEvent) := do
  ensure (R.canSign sender) .missingSignature
  ensure (escrowAccount = (R.findProgramAddress (escrowSeeds sender recipient args.id)).1)
    .constraintSeeds
  let accounts ← initAccount R sender escrowAccount accounts
  ensure (recipient ≠ sender) .invalidRecipient
  validateArgs args
  let accounts ← systemTransfer sender escrowAccount args.amount.toNat accounts
  let escrow := newEscrow R sender recipient args
  .ok (accounts.setData escrowAccount (some escrow), escrow.event .created)

/-- Releases an escrow to its recipient. The router's accounts are the remaining ones. -/
def finishEscrow (slot moment : ℕ) (recipient sender escrowAccount verifierRouter : Pubkey)
    (remainingAccounts : List AccountMeta) (receiptSeal : Bytes) (accounts : Accounts) :
    Except ProgramError (Accounts × EscrowEvent) := do
  ensure (R.canSign recipient) .missingSignature
  let escrow ← loadEscrow escrowAccount accounts
  ensure (sender = escrow.sender) .constraintAddress
  ensure (R.createProgramAddress (escrowSeeds escrow.sender recipient escrow.id
    ++ [[escrow.bump]]) = some escrowAccount) .constraintSeeds
  ensure (verifierRouter = verifierRouterId) .constraintAddress
  ensure (recipient = escrow.recipient) .unauthorized
  (match escrow.finishAfter with
    | some finishAfter => ensure (finishAfter.toNat ≤ slot) .notReady
    | none => .ok () : Except ProgramError Unit)
  (if escrow.condition ≠ noCondition then
      verifyReleaseProof R moment escrow remainingAccounts receiptSeal
    else .ok () : Except ProgramError Unit)
  ensure (escrow.amount.toNat ≤ (accounts escrowAccount).lamports) .arithmeticOverflow
  let debited := (accounts escrowAccount).lamports - escrow.amount.toNat
  let credited ← addLamports (accounts recipient).lamports escrow.amount.toNat
  let accounts := (accounts.setLamports escrowAccount debited).setLamports recipient credited
  let accounts ← closeAccount escrowAccount sender accounts
  .ok (accounts, escrow.event .finished)

/-- Cancels an escrow and refunds the original sender. -/
def cancelEscrow (slot : ℕ) (sender escrowAccount : Pubkey) (accounts : Accounts) :
    Except ProgramError (Accounts × EscrowEvent) := do
  ensure (R.canSign sender) .missingSignature
  let escrow ← loadEscrow escrowAccount accounts
  ensure (R.createProgramAddress (escrowSeeds sender escrow.recipient escrow.id
    ++ [[escrow.bump]]) = some escrowAccount) .constraintSeeds
  ensure (sender = escrow.sender) .unauthorized
  let cancelAfter ← (match escrow.cancelAfter with
    | none => .error .cancelNotAllowed
    | some cancelAfter => .ok cancelAfter : Except ProgramError UInt64)
  ensure (cancelAfter.toNat ≤ slot) .notExpired
  let accounts ← closeAccount escrowAccount sender accounts
  .ok (accounts, escrow.event .cancelled)

end

/-! ## What the handlers do -/

theorem addLamports_eq_ok {a b r : ℕ} : addLamports a b = .ok r ↔ a + b < 2 ^ 64 ∧ r = a + b := by
  rw [addLamports, ensure_bind_eq_ok, Except.ok.injEq, eq_comm (a := r)]

theorem loadEscrow_eq_ok {a : Pubkey} {accounts : Accounts} {escrow : EscrowAccount} :
    loadEscrow a accounts = .ok escrow ↔ (accounts a).data = some escrow := by
  rw [loadEscrow]
  split
  · next h =>
    rw [h]
    exact iff_of_false error_ne_ok (Option.some_ne_none escrow).symm
  · next escrow' h => rw [h, Except.ok.injEq, Option.some.injEq]

/-- The accounts after a transfer. -/
def Accounts.transferred (accounts : Accounts) (source destination : Pubkey) (n : ℕ) : Accounts :=
  let debited := accounts.setLamports source ((accounts source).lamports - n)
  debited.setLamports destination ((debited destination).lamports + n)

theorem systemTransfer_eq_ok {source destination : Pubkey} {n : ℕ} {accounts accounts' : Accounts} :
    systemTransfer source destination n accounts = .ok accounts' ↔
      (accounts source).data = none ∧ n ≤ (accounts source).lamports ∧
      (accounts.setLamports source ((accounts source).lamports - n) destination).lamports + n
        < 2 ^ 64 ∧
      accounts' = accounts.transferred source destination n := by
  rw [systemTransfer, ensure_bind_eq_ok, ensure_bind_eq_ok, bind_eq_ok]
  refine and_congr_right' (and_congr_right' ?_)
  simp only [addLamports_eq_ok]
  constructor
  · rintro ⟨_, ⟨hlt, rfl⟩, hres⟩
    exact ⟨hlt, (Except.ok.inj hres).symm⟩
  · rintro ⟨hlt, rfl⟩
    exact ⟨_, ⟨hlt, rfl⟩, rfl⟩

/-- The accounts after `a` was closed in favour of `destination`. -/
def Accounts.closed (accounts : Accounts) (a destination : Pubkey) : Accounts :=
  ((accounts.setLamports destination ((accounts destination).lamports
    + (accounts a).lamports)).setLamports a 0).setData a none

theorem closeAccount_eq_ok {a destination : Pubkey} {accounts accounts' : Accounts} :
    closeAccount a destination accounts = .ok accounts' ↔
      (accounts destination).lamports + (accounts a).lamports < 2 ^ 64 ∧
      accounts' = accounts.closed a destination := by
  rw [closeAccount, bind_eq_ok]
  simp only [addLamports_eq_ok]
  constructor
  · rintro ⟨_, ⟨hlt, rfl⟩, hres⟩
    exact ⟨hlt, (Except.ok.inj hres).symm⟩
  · rintro ⟨hlt, rfl⟩
    exact ⟨_, ⟨hlt, rfl⟩, rfl⟩

theorem validateArgs_eq_ok {args : CreateEscrowArgs} : validateArgs args = .ok () ↔
    (args.finishAfter.isSome ∨ args.cancelAfter.isSome) ∧
    (args.condition = noCondition ∨ args.cancelAfter.isSome) ∧
    (∀ cancel, args.cancelAfter = some cancel → args.finishAfter.getD 0 < cancel) ∧
    0 < args.amount := by
  have horder : (match args.cancelAfter with
      | some cancel => ensure (args.finishAfter.getD 0 < cancel) .invalidTimeOrder
      | none => .ok () : Except ProgramError Unit) = .ok () ↔
        ∀ cancel, args.cancelAfter = some cancel → args.finishAfter.getD 0 < cancel := by
    split
    · next cancel h =>
      rw [ensure_eq_ok, h]
      simp only [Option.some.injEq, forall_eq']
    · next h => simp [h]
  rw [validateArgs, ensure_bind_eq_ok, ensure_bind_eq_ok, bind_eq_ok]
  simp only [ensure_eq_ok, horder]
  constructor
  · rintro ⟨hpath, hcondition, _, horder, hamount⟩
    exact ⟨hpath, hcondition, horder, hamount⟩
  · rintro ⟨hpath, hcondition, horder, hamount⟩
    exact ⟨hpath, hcondition, (), horder, hamount⟩

/-- A creation writes the account data at an address of the runtime's choice that held none, after
the sender has paid the rent reserve and the amount. -/
theorem createEscrow_eq_ok {R : Runtime} {sender recipient a : Pubkey} {args : CreateEscrowArgs}
    {accounts accounts' : Accounts} {e : EscrowEvent} :
    createEscrow R sender recipient a args accounts = .ok (accounts', e) ↔
      R.canSign sender = true ∧
      a = (R.findProgramAddress (escrowSeeds sender recipient args.id)).1 ∧
      recipient ≠ sender ∧ validateArgs args = .ok () ∧ (accounts a).data = none ∧
      ∃ initialized funded,
        systemTransfer sender a (R.rentReserve - (accounts a).lamports) accounts = .ok initialized ∧
        systemTransfer sender a args.amount.toNat initialized = .ok funded ∧
        accounts' = funded.setData a (some (newEscrow R sender recipient args)) ∧
        e = (newEscrow R sender recipient args).event .created := by
  simp only [createEscrow, initAccount, ensure_bind_eq_ok]
  constructor
  · rintro ⟨hsign, haddress, h⟩
    obtain ⟨initialized, hinit, h⟩ := bind_eq_ok.mp h
    obtain ⟨hne, h⟩ := ensure_bind_eq_ok.mp h
    obtain ⟨_, hargs, h⟩ := bind_eq_ok.mp h
    obtain ⟨funded, hfund, h⟩ := bind_eq_ok.mp h
    obtain ⟨rfl, rfl⟩ := Prod.mk.inj (Except.ok.inj h)
    obtain ⟨hnone, hinit⟩ := ensure_bind_eq_ok.mp hinit
    exact ⟨hsign, haddress, hne, hargs, hnone, initialized, funded, hinit, hfund, rfl, rfl⟩
  · rintro ⟨hsign, haddress, hne, hargs, hnone, initialized, funded, hinit, hfund, rfl, rfl⟩
    refine ⟨hsign, haddress, bind_eq_ok.mpr ⟨initialized, ?_, ?_⟩⟩
    · exact ensure_bind_eq_ok.mpr ⟨hnone, hinit⟩
    · refine ensure_bind_eq_ok.mpr ⟨hne, bind_eq_ok.mpr ⟨(), hargs, ?_⟩⟩
      exact bind_eq_ok.mpr ⟨funded, hfund, rfl⟩

/-- What lets `finish_escrow` release the account `a` with data `escrow`. -/
structure FinishAllowed (R : Runtime) (slot moment : ℕ) (recipient sender a verifierRouter : Pubkey)
    (remaining : List AccountMeta) (receiptSeal : Bytes) (escrow : EscrowAccount) : Prop where
  signed : R.canSign recipient = true
  funder : sender = escrow.sender
  seeds : R.createProgramAddress (escrowSeeds escrow.sender recipient escrow.id
    ++ [[escrow.bump]]) = some a
  router : verifierRouter = verifierRouterId
  caller : recipient = escrow.recipient
  time : ∀ t, escrow.finishAfter = some t → t.toNat ≤ slot
  proof : escrow.condition ≠ noCondition → routerVerify R.sha256 (R.router moment remaining)
    (releaseProofData R.sha256 R.imageId escrow receiptSeal) ≠ none

/-- The accounts after the amount was moved from the escrow account to the recipient. -/
def Accounts.released (accounts : Accounts) (a recipient : Pubkey) (amount : ℕ) : Accounts :=
  (accounts.setLamports a ((accounts a).lamports - amount)).setLamports recipient
    ((accounts recipient).lamports + amount)

/-- A release moves the amount to the recipient and closes the account in favour of the sender. -/
theorem finishEscrow_eq_ok {R : Runtime} {slot moment : ℕ}
    {recipient sender a verifierRouter : Pubkey} {remaining : List AccountMeta}
    {receiptSeal : Bytes} {accounts accounts' : Accounts} {e : EscrowEvent} :
    finishEscrow R slot moment recipient sender a verifierRouter remaining receiptSeal accounts
      = .ok (accounts', e) ↔
    ∃ escrow, (accounts a).data = some escrow ∧
      FinishAllowed R slot moment recipient sender a verifierRouter remaining receiptSeal escrow ∧
      escrow.amount.toNat ≤ (accounts a).lamports ∧
      (accounts recipient).lamports + escrow.amount.toNat < 2 ^ 64 ∧
      closeAccount a sender (accounts.released a recipient escrow.amount.toNat) = .ok accounts' ∧
      e = escrow.event .finished := by
  have htime (escrow : EscrowAccount) : (match escrow.finishAfter with
      | some finishAfter => ensure (finishAfter.toNat ≤ slot) .notReady
      | none => .ok () : Except ProgramError Unit) = .ok () ↔
        ∀ t, escrow.finishAfter = some t → t.toNat ≤ slot := by
    split
    · next t ht =>
      rw [ensure_eq_ok, ht]
      simp only [Option.some.injEq, forall_eq']
    · next ht => simp [ht]
  have hproof (escrow : EscrowAccount) : (if escrow.condition ≠ noCondition then
      verifyReleaseProof R moment escrow remaining receiptSeal
        else .ok () : Except ProgramError Unit) = .ok () ↔
      (escrow.condition ≠ noCondition → routerVerify R.sha256 (R.router moment remaining)
        (releaseProofData R.sha256 R.imageId escrow receiptSeal) ≠ none) := by
    split
    · next hcond => rw [verifyReleaseProof, ensure_eq_ok, imp_iff_right hcond]
    · next hcond => exact iff_of_true rfl fun h ↦ absurd h hcond
  rw [finishEscrow, ensure_bind_eq_ok, bind_eq_ok]
  simp only [loadEscrow_eq_ok, ensure_bind_eq_ok]
  constructor
  · rintro ⟨hsign, escrow, hdata, hsender, hseeds, hrouter, hrecipient, h⟩
    obtain ⟨_, ht, h⟩ := bind_eq_ok.mp h
    obtain ⟨_, hp, h⟩ := bind_eq_ok.mp h
    obtain ⟨hamount, h⟩ := ensure_bind_eq_ok.mp h
    obtain ⟨_, hcredit, h⟩ := bind_eq_ok.mp h
    obtain ⟨hlt, rfl⟩ := addLamports_eq_ok.mp hcredit
    obtain ⟨closed, hclose, h⟩ := bind_eq_ok.mp h
    obtain ⟨rfl, rfl⟩ := Prod.mk.inj (Except.ok.inj h)
    exact ⟨escrow, hdata, ⟨hsign, hsender, hseeds, hrouter, hrecipient, (htime escrow).mp ht,
      (hproof escrow).mp hp⟩, hamount, hlt, hclose, rfl⟩
  · rintro ⟨escrow, hdata, h, hamount, hlt, hclose, rfl⟩
    refine ⟨h.signed, escrow, hdata, h.funder, h.seeds, h.router, h.caller, ?_⟩
    refine bind_eq_ok.mpr ⟨(), (htime escrow).mpr h.time, ?_⟩
    refine bind_eq_ok.mpr ⟨(), (hproof escrow).mpr h.proof, ?_⟩
    refine ensure_bind_eq_ok.mpr ⟨hamount, ?_⟩
    refine bind_eq_ok.mpr ⟨_, addLamports_eq_ok.mpr ⟨hlt, rfl⟩, ?_⟩
    exact bind_eq_ok.mpr ⟨_, hclose, rfl⟩

/-- What lets `cancel_escrow` refund the account `a` with data `escrow`. -/
structure CancelAllowed (R : Runtime) (slot : ℕ) (sender a : Pubkey) (escrow : EscrowAccount) :
    Prop where
  signed : R.canSign sender = true
  seeds : R.createProgramAddress (escrowSeeds sender escrow.recipient escrow.id
    ++ [[escrow.bump]]) = some a
  caller : sender = escrow.sender
  time : ∃ t, escrow.cancelAfter = some t ∧ t.toNat ≤ slot

/-- A refund closes the account in favour of the sender. -/
theorem cancelEscrow_eq_ok {R : Runtime} {slot : ℕ} {sender a : Pubkey}
    {accounts accounts' : Accounts} {e : EscrowEvent} :
    cancelEscrow R slot sender a accounts = .ok (accounts', e) ↔
    ∃ escrow, (accounts a).data = some escrow ∧ CancelAllowed R slot sender a escrow ∧
      closeAccount a sender accounts = .ok accounts' ∧ e = escrow.event .cancelled := by
  have henabled (escrow : EscrowAccount) (t : UInt64) : (match escrow.cancelAfter with
      | none => .error .cancelNotAllowed
      | some cancelAfter => .ok cancelAfter : Except ProgramError UInt64) = .ok t ↔
        escrow.cancelAfter = some t := by
    split
    · next h =>
      rw [h]
      exact iff_of_false error_ne_ok (Option.some_ne_none t).symm
    · next h => rw [h, Except.ok.injEq, Option.some.injEq]
  rw [cancelEscrow, ensure_bind_eq_ok, bind_eq_ok]
  simp only [loadEscrow_eq_ok, ensure_bind_eq_ok]
  constructor
  · rintro ⟨hsign, escrow, hdata, hseeds, hsender, h⟩
    obtain ⟨t, ht, h⟩ := bind_eq_ok.mp h
    obtain ⟨hle, h⟩ := ensure_bind_eq_ok.mp h
    obtain ⟨closed, hclose, h⟩ := bind_eq_ok.mp h
    obtain ⟨rfl, rfl⟩ := Prod.mk.inj (Except.ok.inj h)
    exact ⟨escrow, hdata, ⟨hsign, hseeds, hsender, t, (henabled escrow t).mp ht, hle⟩, hclose, rfl⟩
  · rintro ⟨escrow, hdata, h, hclose, rfl⟩
    obtain ⟨t, ht, hle⟩ := h.time
    refine ⟨h.signed, escrow, hdata, h.seeds, h.caller, ?_⟩
    refine bind_eq_ok.mpr ⟨t, (henabled escrow t).mpr ht, ensure_bind_eq_ok.mpr ⟨hle, ?_⟩⟩
    exact bind_eq_ok.mpr ⟨_, hclose, rfl⟩

end Zescrow.Solana
