import Zescrow.Foundation.Borsh
import Zescrow.Foundation.Sha256
import Zescrow.Solana.Program

/-!
# Instructions of the Solana program

What reaches the program is a list of accounts and a string of bytes, both chosen by whoever submits
the instruction. Anchor's dispatcher looks for one of three discriminators at the front of the data,
decodes the arguments of that handler from what follows, and gives out the accounts in the order in
which the account struct of the handler names them, checking who signs and what may be written to.

Nothing is asked of what the data and the list go on with, except that a release hands the accounts
its struct does not name to the router. `process_eq_ok` says which instructions
are carried out: each is one call of one handler, with the arguments and the accounts it is encoded
with.
-/

open Foundation

namespace Zescrow.Solana

structure Instruction where
  programId : Pubkey
  accounts : List AccountMeta
  data : Bytes

/-- Why an instruction is not carried out. -/
inductive InstructionError where
  | unsupportedProgramId
  | instructionFallbackNotFound
  | instructionDidNotDeserialize
  | accountNotEnoughKeys
  | accountNotSigner
  | invalidProgramId
  | constraintMut
  | program (e : ProgramError)
  deriving DecidableEq

/-- The address of the system program. -/
def systemProgramId : Pubkey := .zero 32

/-! ## Instruction data -/

/-- `sha256("global:<handler>")[..8]`, computed when the program is compiled. -/
def discriminator (handler : String) : Bytes :=
  (Sha256.digest (ascii ("global:" ++ handler))).1.take 8

/-- The handlers of the program, with the arguments that are sent to them. -/
inductive EscrowInstruction where
  | createEscrow (args : CreateEscrowArgs)
  | finishEscrow (receiptSeal : Bytes)
  | cancelEscrow
  deriving DecidableEq

def CreateEscrowArgs.serialize (args : CreateEscrowArgs) : Bytes :=
  Borsh.u64 args.id ++ (Borsh.u64 args.amount ++ (Borsh.option Borsh.u64 args.finishAfter ++
    (Borsh.option Borsh.u64 args.cancelAfter ++ args.condition.1)))

def CreateEscrowArgs.deserialize : Borsh.Reader CreateEscrowArgs := do
  let id ← Borsh.readU64
  let amount ← Borsh.readU64
  let finishAfter ← Borsh.readOption Borsh.readU64
  let cancelAfter ← Borsh.readOption Borsh.readU64
  let condition ← Borsh.readArray 32
  return { id, amount, finishAfter, cancelAfter, condition }

/-- `InstructionData::data`. There is none for a seal that Borsh cannot write the length of, on
which the method panics. -/
def EscrowInstruction.data : EscrowInstruction → Option Bytes
  | createEscrow args => some (discriminator "create_escrow" ++ args.serialize)
  | finishEscrow receiptSeal =>
    (Borsh.byteVec receiptSeal).map (discriminator "finish_escrow" ++ ·)
  | cancelEscrow => some (discriminator "cancel_escrow")

/-- Decodes the arguments of a handler. -/
def deserializeArgs {α : Type} (r : Borsh.Reader α) (data : Bytes) : Except InstructionError α :=
  (r.parse data).mapError fun _ ↦ .instructionDidNotDeserialize

/-- Anchor's dispatcher: the handler that the data is for. -/
def dispatch (data : Bytes) : Except InstructionError EscrowInstruction :=
  if data.take 8 = discriminator "create_escrow" then do
    let args ← deserializeArgs CreateEscrowArgs.deserialize (data.drop 8)
    .ok (.createEscrow args)
  else if data.take 8 = discriminator "finish_escrow" then do
    let receiptSeal ← deserializeArgs Borsh.readByteVec (data.drop 8)
    .ok (.finishEscrow receiptSeal)
  else if data.take 8 = discriminator "cancel_escrow" then .ok .cancelEscrow
  else .error .instructionFallbackNotFound

/-! ## The account structs -/

/-- Takes the next account. -/
def nextAccount : List AccountMeta → Except InstructionError (AccountMeta × List AccountMeta)
  | [] => .error .accountNotEnoughKeys
  | m :: metas => .ok (m, metas)

/-- Takes the next account, which has to sign. -/
def nextSigner (metas : List AccountMeta) :
    Except InstructionError (AccountMeta × List AccountMeta) := do
  let (m, metas) ← nextAccount metas
  ensure m.isSigner .accountNotSigner
  .ok (m, metas)

structure CreateEscrow where
  sender : Pubkey
  recipient : Pubkey
  escrowAccount : Pubkey
  deriving DecidableEq

/-- With the remaining accounts of the context. -/
structure FinishEscrow where
  recipient : Pubkey
  sender : Pubkey
  escrowAccount : Pubkey
  verifierRouter : Pubkey
  remainingAccounts : List AccountMeta
  deriving DecidableEq

structure CancelEscrow where
  sender : Pubkey
  escrowAccount : Pubkey
  deriving DecidableEq

def CreateEscrow.tryAccounts (metas : List AccountMeta) :
    Except InstructionError CreateEscrow := do
  let (sender, metas) ← nextSigner metas
  let (recipient, metas) ← nextAccount metas
  let (escrowAccount, metas) ← nextAccount metas
  let (systemProgram, _) ← nextAccount metas
  ensure (systemProgram.pubkey = systemProgramId) .invalidProgramId
  ensure (sender.isWritable ∧ escrowAccount.isWritable) .constraintMut
  .ok ⟨sender.pubkey, recipient.pubkey, escrowAccount.pubkey⟩

def FinishEscrow.tryAccounts (metas : List AccountMeta) :
    Except InstructionError FinishEscrow := do
  let (recipient, metas) ← nextSigner metas
  let (sender, metas) ← nextAccount metas
  let (escrowAccount, metas) ← nextAccount metas
  let (verifierRouter, metas) ← nextAccount metas
  ensure (recipient.isWritable ∧ sender.isWritable ∧ escrowAccount.isWritable) .constraintMut
  .ok ⟨recipient.pubkey, sender.pubkey, escrowAccount.pubkey, verifierRouter.pubkey, metas⟩

def CancelEscrow.tryAccounts (metas : List AccountMeta) :
    Except InstructionError CancelEscrow := do
  let (sender, metas) ← nextSigner metas
  let (escrowAccount, _) ← nextAccount metas
  ensure (sender.isWritable ∧ escrowAccount.isWritable) .constraintMut
  .ok ⟨sender.pubkey, escrowAccount.pubkey⟩

/-! ## Processing -/

section

variable (R : Runtime)

/-- Calls the handler that an instruction is for. -/
def EscrowInstruction.call (slot moment : ℕ) (metas : List AccountMeta) (accounts : Accounts) :
    EscrowInstruction → Except InstructionError (Accounts × EscrowEvent)
  | createEscrow args => do
    let ctx ← CreateEscrow.tryAccounts metas
    (Solana.createEscrow R ctx.sender ctx.recipient ctx.escrowAccount args accounts).mapError
      .program
  | finishEscrow receiptSeal => do
    let ctx ← FinishEscrow.tryAccounts metas
    (Solana.finishEscrow R slot moment ctx.recipient ctx.sender ctx.escrowAccount
      ctx.verifierRouter ctx.remainingAccounts receiptSeal accounts).mapError .program
  | cancelEscrow => do
    let ctx ← CancelEscrow.tryAccounts metas
    (Solana.cancelEscrow R slot ctx.sender ctx.escrowAccount accounts).mapError .program

/-- The runtime checks that everyone who is said to sign has signed, and hands the instruction to
the program it is addressed to. -/
def process (slot moment : ℕ) (ix : Instruction) (accounts : Accounts) :
    Except InstructionError (Accounts × EscrowEvent) := do
  ensure (∀ m ∈ ix.accounts, m.isSigner = true → R.canSign m.pubkey = true)
    (.program .missingSignature)
  ensure (ix.programId = programId) .unsupportedProgramId
  let instruction ← dispatch ix.data
  instruction.call R slot moment ix.accounts accounts

end

/-! ## What the dispatcher accepts -/

theorem discriminator_createEscrow : discriminator "create_escrow" =
    [0xfd, 0xd7, 0xa5, 0x74, 0x24, 0x6c, 0x44, 0x50] := by
  decide +kernel

theorem discriminator_finishEscrow : discriminator "finish_escrow" =
    [0x6f, 0xdf, 0x37, 0x5f, 0xb9, 0xc1, 0x2b, 0x45] := by
  decide +kernel

theorem discriminator_cancelEscrow : discriminator "cancel_escrow" =
    [0x9c, 0xcb, 0x36, 0xb3, 0x26, 0x48, 0x21, 0x15] := by
  decide +kernel

theorem length_discriminator (handler : String) : (discriminator handler).length = 8 := by
  rw [discriminator, List.length_take, (Sha256.digest _).2]
  rfl

theorem exact_deserialize :
    Parser.Exact CreateEscrowArgs.deserialize fun a b ↦ True ∧ b = a.serialize := by
  have hheight := Borsh.exact_readOption Borsh.exact_readU64
  refine (Parser.exact_bind Borsh.exact_readU64 fun id ↦
    Parser.exact_bind Borsh.exact_readU64 fun amount ↦
    Parser.exact_bind hheight fun finishAfter ↦
    Parser.exact_bind hheight fun cancelAfter ↦
    Parser.exact_bind (Borsh.exact_readArray 32) fun condition ↦
    Parser.exact_pure _).congr fun a b ↦ ?_
  simp only [Parser.seq_iff]
  constructor
  · rintro ⟨id, _, rfl, -, amount, _, rfl, -, finishAfter, _, rfl, -, cancelAfter, _, rfl, -,
      condition, _, rfl, -, rfl, rfl⟩
    refine ⟨trivial, ?_⟩
    rw [CreateEscrowArgs.serialize, List.append_nil]
  · rintro ⟨-, rfl⟩
    exact ⟨a.id, _, rfl, trivial, a.amount, _, rfl, trivial, a.finishAfter, _, rfl,
      fun _ _ ↦ trivial, a.cancelAfter, _, rfl, fun _ _ ↦ trivial, a.condition, [],
      (List.append_nil _).symm, trivial, rfl, rfl⟩

theorem take_eq_discriminator {data : Bytes} {handler : String} :
    data.take 8 = discriminator handler ↔ data = discriminator handler ++ data.drop 8 := by
  constructor
  · intro h
    rw [← h, List.take_append_drop]
  · intro h
    rw [h]
    exact List.take_left' (length_discriminator handler)

theorem take_discriminator_append (handler : String) (rest : Bytes) :
    (discriminator handler ++ rest).take 8 = discriminator handler :=
  List.take_left' (length_discriminator handler)

theorem drop_discriminator_append (handler : String) (rest : Bytes) :
    (discriminator handler ++ rest).drop 8 = rest :=
  List.drop_left' (length_discriminator handler)

theorem deserializeArgs_eq_ok {α : Type} {r : Borsh.Reader α} {E : α → Bytes → Prop}
    (h : Parser.Exact r E) {data : Bytes} {a : α} :
    deserializeArgs r data = .ok a ↔ ∃ b rest, data = b ++ rest ∧ E a b := by
  rw [deserializeArgs, mapError_eq_ok, (h 0).parse_eq_ok]

/-- **What the dispatcher accepts**: the data of an instruction, and then anything. -/
theorem dispatch_eq_ok {data : Bytes} {i : EscrowInstruction} :
    dispatch data = .ok i ↔ ∃ b rest, i.data = some b ∧ data = b ++ rest := by
  constructor
  · intro h
    rw [dispatch] at h
    split at h
    · next hdisc =>
      obtain ⟨args, hargs, h⟩ := bind_eq_ok.mp h
      obtain rfl := Except.ok.inj h
      obtain ⟨_, rest, hdrop, -, rfl⟩ := (deserializeArgs_eq_ok exact_deserialize).mp hargs
      refine ⟨_, rest, rfl, ?_⟩
      rw [take_eq_discriminator.mp hdisc, hdrop, List.append_assoc]
    split at h
    · next hdisc =>
      obtain ⟨receiptSeal, hargs, h⟩ := bind_eq_ok.mp h
      obtain rfl := Except.ok.inj h
      obtain ⟨b, rest, hdrop, hvec⟩ := (deserializeArgs_eq_ok Borsh.exact_readByteVec).mp hargs
      refine ⟨discriminator "finish_escrow" ++ b, rest, ?_, ?_⟩
      · rw [EscrowInstruction.data, hvec, Option.map_some]
      · rw [take_eq_discriminator.mp hdisc, hdrop, List.append_assoc]
    split at h
    · next hdisc =>
      obtain rfl := Except.ok.inj h
      exact ⟨_, _, rfl, take_eq_discriminator.mp hdisc⟩
    · exact absurd h error_ne_ok
  · rintro ⟨b, rest, hdata, rfl⟩
    have hfinish : discriminator "finish_escrow" ≠ discriminator "create_escrow" := by
      rw [discriminator_createEscrow, discriminator_finishEscrow]
      decide
    have hcancel : discriminator "cancel_escrow" ≠ discriminator "create_escrow" ∧
        discriminator "cancel_escrow" ≠ discriminator "finish_escrow" := by
      rw [discriminator_createEscrow, discriminator_finishEscrow, discriminator_cancelEscrow]
      decide
    cases i with
    | createEscrow args =>
      obtain rfl := Option.some.inj hdata
      rw [List.append_assoc, dispatch, if_pos (take_discriminator_append _ _),
        drop_discriminator_append]
      exact bind_eq_ok.mpr ⟨args, (deserializeArgs_eq_ok exact_deserialize).mpr
        ⟨_, rest, rfl, trivial, rfl⟩, rfl⟩
    | finishEscrow receiptSeal =>
      obtain ⟨b, hvec, rfl⟩ := Option.map_eq_some_iff.mp hdata
      rw [List.append_assoc, dispatch, take_discriminator_append, if_neg hfinish, if_pos rfl,
        drop_discriminator_append]
      exact bind_eq_ok.mpr ⟨receiptSeal, (deserializeArgs_eq_ok Borsh.exact_readByteVec).mpr
        ⟨b, rest, rfl, hvec⟩, rfl⟩
    | cancelEscrow =>
      obtain rfl := Option.some.inj hdata
      rw [dispatch, take_discriminator_append, if_neg hcancel.1, if_neg hcancel.2, if_pos rfl]

/-! ## What the account structs accept -/

theorem nextAccount_bind_eq_ok {β : Type} {metas : List AccountMeta}
    {f : AccountMeta × List AccountMeta → Except InstructionError β} {y : β} :
    (nextAccount metas >>= f) = .ok y ↔ ∃ m rest, metas = m :: rest ∧ f (m, rest) = .ok y := by
  cases metas with
  | nil => exact iff_of_false error_ne_ok fun ⟨_, _, h, _⟩ ↦ List.cons_ne_nil _ _ h.symm
  | cons m rest =>
    constructor
    · intro h
      exact ⟨m, rest, rfl, h⟩
    · rintro ⟨_, _, hcons, h⟩
      obtain ⟨rfl, rfl⟩ := List.cons.inj hcons
      exact h

theorem nextSigner_bind_eq_ok {β : Type} {metas : List AccountMeta}
    {f : AccountMeta × List AccountMeta → Except InstructionError β} {y : β} :
    (nextSigner metas >>= f) = .ok y ↔
      ∃ m rest, metas = m :: rest ∧ m.isSigner = true ∧ f (m, rest) = .ok y := by
  rw [nextSigner, bind_assoc, nextAccount_bind_eq_ok]
  simp only [bind_assoc, ensure_bind_eq_ok]
  exact Iff.rfl

/-- A list that starts with the accounts of the struct, its signer signing and what it changes
writable. -/
theorem CreateEscrow.tryAccounts_eq_ok {metas : List AccountMeta} {ctx : CreateEscrow} :
    tryAccounts metas = .ok ctx ↔ ∃ recipientSigns recipientWritable accountSigns systemSigns
      systemWritable rest, metas = ⟨ctx.sender, true, true⟩ ::
        ⟨ctx.recipient, recipientSigns, recipientWritable⟩ ::
        ⟨ctx.escrowAccount, accountSigns, true⟩ ::
        ⟨systemProgramId, systemSigns, systemWritable⟩ :: rest := by
  simp only [tryAccounts, nextSigner_bind_eq_ok, nextAccount_bind_eq_ok, ensure_bind_eq_ok]
  constructor
  · rintro ⟨⟨sender, _, _⟩, _, rfl, rfl, ⟨recipient, rs, rw⟩, _, rfl, ⟨a, as, _⟩, _, rfl,
      ⟨_, ss, sw⟩, rest, rfl, rfl, ⟨rfl, rfl⟩, h⟩
    obtain rfl := Except.ok.inj h
    exact ⟨rs, rw, as, ss, sw, rest, rfl⟩
  · rintro ⟨rs, rw, as, ss, sw, rest, rfl⟩
    exact ⟨_, _, rfl, rfl, _, _, rfl, _, _, rfl, _, _, rfl, rfl, ⟨rfl, rfl⟩, rfl⟩

theorem FinishEscrow.tryAccounts_eq_ok {metas : List AccountMeta} {ctx : FinishEscrow} :
    tryAccounts metas = .ok ctx ↔ ∃ senderSigns accountSigns routerSigns routerWritable,
      metas = ⟨ctx.recipient, true, true⟩ :: ⟨ctx.sender, senderSigns, true⟩ ::
        ⟨ctx.escrowAccount, accountSigns, true⟩ ::
        ⟨ctx.verifierRouter, routerSigns, routerWritable⟩ :: ctx.remainingAccounts := by
  simp only [tryAccounts, nextSigner_bind_eq_ok, nextAccount_bind_eq_ok, ensure_bind_eq_ok]
  constructor
  · rintro ⟨⟨recipient, _, _⟩, _, rfl, rfl, ⟨sender, ss, _⟩, _, rfl, ⟨a, as, _⟩, _, rfl,
      ⟨router, rs, rw⟩, rest, rfl, ⟨rfl, rfl, rfl⟩, h⟩
    obtain rfl := Except.ok.inj h
    exact ⟨ss, as, rs, rw, rfl⟩
  · rintro ⟨ss, as, rs, rw, rfl⟩
    exact ⟨_, _, rfl, rfl, _, _, rfl, _, _, rfl, _, _, rfl, ⟨rfl, rfl, rfl⟩, rfl⟩

theorem CancelEscrow.tryAccounts_eq_ok {metas : List AccountMeta} {ctx : CancelEscrow} :
    tryAccounts metas = .ok ctx ↔ ∃ accountSigns rest, metas =
      ⟨ctx.sender, true, true⟩ :: ⟨ctx.escrowAccount, accountSigns, true⟩ :: rest := by
  simp only [tryAccounts, nextSigner_bind_eq_ok, nextAccount_bind_eq_ok, ensure_bind_eq_ok]
  constructor
  · rintro ⟨⟨sender, _, _⟩, _, rfl, rfl, ⟨a, as, _⟩, rest, rfl, ⟨rfl, rfl⟩, h⟩
    obtain rfl := Except.ok.inj h
    exact ⟨as, rest, rfl⟩
  · rintro ⟨as, rest, rfl⟩
    exact ⟨_, _, rfl, rfl, _, _, rfl, ⟨rfl, rfl⟩, rfl⟩

/-! ## What is carried out -/

variable {R : Runtime} {slot moment : ℕ} {ix : Instruction} {accounts accounts' : Accounts}
  {e : EscrowEvent}

theorem process_eq_ok : process R slot moment ix accounts = .ok (accounts', e) ↔
    (∀ m ∈ ix.accounts, m.isSigner = true → R.canSign m.pubkey = true) ∧
      ix.programId = programId ∧ ∃ (i : EscrowInstruction) (b rest : Bytes), i.data = some b ∧
        ix.data = b ++ rest ∧ i.call R slot moment ix.accounts accounts = .ok (accounts', e) := by
  rw [process, ensure_bind_eq_ok, ensure_bind_eq_ok]
  refine and_congr_right' (and_congr_right' ?_)
  simp only [bind_eq_ok, dispatch_eq_ok]
  constructor
  · rintro ⟨i, ⟨b, rest, hb, hdata⟩, hcall⟩
    exact ⟨i, b, rest, hb, hdata, hcall⟩
  · rintro ⟨i, b, rest, hb, hdata, hcall⟩
    exact ⟨i, ⟨b, rest, hb, hdata⟩, hcall⟩

/-- **An instruction that is carried out is a call of one of the handlers**, with keys that it
names. -/
theorem process_cases (h : process R slot moment ix accounts = .ok (accounts', e)) :
    (∃ sender recipient a args,
      createEscrow R sender recipient a args accounts = .ok (accounts', e)) ∨
    (∃ recipient sender a verifierRouter remaining receiptSeal, finishEscrow R slot moment recipient
      sender a verifierRouter remaining receiptSeal accounts = .ok (accounts', e)) ∨
    ∃ sender a, cancelEscrow R slot sender a accounts = .ok (accounts', e) := by
  obtain ⟨-, -, i, -, -, -, -, hcall⟩ := process_eq_ok.mp h
  cases i with
  | createEscrow args =>
    obtain ⟨ctx, -, hcreate⟩ := bind_eq_ok.mp hcall
    exact .inl ⟨_, _, _, args, mapError_eq_ok.mp hcreate⟩
  | finishEscrow receiptSeal =>
    obtain ⟨ctx, -, hfinish⟩ := bind_eq_ok.mp hcall
    exact .inr (.inl ⟨_, _, _, _, _, receiptSeal, mapError_eq_ok.mp hfinish⟩)
  | cancelEscrow =>
    obtain ⟨ctx, -, hcancel⟩ := bind_eq_ok.mp hcall
    exact .inr (.inr ⟨_, _, mapError_eq_ok.mp hcancel⟩)

end Zescrow.Solana
