import Mathlib.Data.Nat.Log
import Zescrow.Core.Escrow
import Zescrow.Foundation.Parser

/-!
# The public commitment and its journal

The guest commits a `PublicCommitment` to the receipt journal. `toJournalBytes` writes it in a
versioned layout with length-prefixed identities and a fixed-width amount; `fromJournalBytes` reads
it back through a bounds-checked cursor. A `try_into` followed by `expect` is modelled with its
panic, so that a reader which could panic is distinguishable from one that reports an error.
-/

open Foundation

namespace Zescrow

/-- Outcome of escrow execution as committed to the public journal. -/
inductive ExecutionResult where
  | success (state : ExecutionState)
  | failure
  deriving DecidableEq

/-- The private input handed to the guest. -/
structure ProofInput where
  escrow : Escrow
  chain : Chain
  agentId : ID
  escrowId : UInt64

/-- The public commitment the guest writes to the receipt journal. -/
structure PublicCommitment where
  chain : Chain
  agentId : Bytes
  escrowId : UInt64
  sender : Bytes
  recipient : Bytes
  assetKind : AssetKind
  assetToken : Bytes
  amount : BigNumber
  condition : FixedBytes 32
  outcome : ExecutionResult
  deriving DecidableEq

/-- Commitment to an optional release condition, all-zero when there is none. -/
def conditionCommitment (K : Crates) (condition : Option Condition) : FixedBytes 32 :=
  (condition.map fun c ↦ c.commitment K).getD (FixedBytes.zero 32)

/-- The decoded token or mint, empty for an asset without one. -/
def Asset.tokenBytes (K : Crates) (a : Asset) : Except EscrowError Bytes :=
  match a.agentId with
  | none => .ok []
  | some id => id.toBytes K

/-- Builds the commitment from the guest input and the execution outcome. -/
def PublicCommitment.new (K : Crates) (input : ProofInput) (outcome : ExecutionResult) :
    Except EscrowError PublicCommitment := do
  let assetToken ← input.escrow.asset.tokenBytes K
  let agentId ← input.agentId.toBytes K
  let sender ← input.escrow.sender.toBytes K
  let recipient ← input.escrow.recipient.toBytes K
  .ok {
    chain := input.chain
    agentId := agentId
    escrowId := input.escrowId
    sender := sender
    recipient := recipient
    assetKind := input.escrow.asset.kind
    assetToken := assetToken
    amount := input.escrow.asset.amount
    condition := conditionCommitment K input.escrow.condition
    outcome := outcome }

/-! ## Encoding -/

def journalVersion : UInt8 := 1

/-- Width, in bytes, of the big-endian amount field. -/
def amountWidth : ℕ := 32

def chainTag : Chain → UInt8
  | .ethereum => 0
  | .solana => 1

def assetKindTag : AssetKind → UInt8
  | .native => 0
  | .token => 1

def stateTag : ExecutionState → UInt8
  | .initialized => 0
  | .funded => 1
  | .conditionsMet => 2

/-- `BigUint::to_bytes_be`: no leading zero byte, except that zero is one zero byte. -/
def bigUintToBytesBE (n : ℕ) : Bytes := toBE (Nat.log 256 n + 1) n

/-- Encodes `amount` as fixed-width 32-byte big-endian. -/
def amountBEBytes (amount : BigNumber) : Except CommitmentError (FixedBytes amountWidth) :=
  let be := bigUintToBytesBE amount
  if h : be.length ≤ amountWidth then
    let offset := amountWidth - be.length
    .ok ⟨List.replicate offset 0 ++ be, by simp [offset]; omega⟩
  else .error .amountTooLarge

/-- Appends a `u16` big-endian length prefix followed by `bytes`. -/
def pushBytes (out bytes : Bytes) : Except CommitmentError Bytes :=
  if bytes.length < 2 ^ 16 then .ok (out ++ toBE 2 bytes.length ++ bytes)
  else .error (.fieldTooLong bytes.length)

/-- Serializes the commitment into the journal byte layout. -/
def PublicCommitment.toJournalBytes (c : PublicCommitment) : Except CommitmentError Bytes := do
  let out : Bytes := [journalVersion, chainTag c.chain]
  let out := match c.outcome with
    | .success state => out ++ [1, stateTag state]
    | .failure => out ++ [0]
  let out ← pushBytes out c.agentId
  let out := out ++ toBE 8 c.escrowId.toNat
  let out ← pushBytes out c.sender
  let out ← pushBytes out c.recipient
  let out := out ++ [assetKindTag c.assetKind]
  let out ← pushBytes out c.assetToken
  let amount ← amountBEBytes c.amount
  let out := out ++ amount.1
  .ok (out ++ c.condition.1)

/-! ## Decoding -/

/-- How reading a journal can end without a result. -/
inductive Fault where
  | error (e : CommitmentError)
  | panic (message : String)
  deriving DecidableEq

namespace Reader

/-- `Option::expect`, and indexing with a literal index. -/
def expect {α : Type} (message : String) : Option α → Parser Fault α
  | some a => pure a
  | none => Parser.fail (.panic message)

/-- `<[u8; n]>::try_from` on a slice. -/
def tryInto (n : ℕ) (b : Bytes) : Option (FixedBytes n) :=
  if h : b.length = n then some ⟨b, h⟩ else none

/-- The offset and a length both fit a `usize`, so a sum that overflows is past the end as well and
the two failures of the source are the same one. -/
def take (len : ℕ) : Parser Fault Bytes :=
  Parser.take (fun offset ↦ .error (.truncated offset)) len

def u8 : Parser Fault UInt8 := do
  let s ← take 1
  expect "index out of bounds" s.head?

def u64 : Parser Fault UInt64 := do
  let s ← take 8
  let bytes ← expect "slice of length 8" (tryInto 8 s)
  return UInt64.ofNat (ofBE bytes.1)

def array32 : Parser Fault (FixedBytes 32) := do
  let s ← take 32
  expect "slice of length 32" (tryInto 32 s)

def lengthPrefixed : Parser Fault Bytes := do
  let s ← take 2
  let len ← expect "slice of length 2" (tryInto 2 s)
  take (ofBE len.1)

def finish : Parser Fault Unit :=
  Parser.finish fun offset ↦ .error (.trailingBytes offset)

end Reader

def chainFromTag (tag : UInt8) : Parser Fault Chain :=
  match tag with
  | 0 => pure .ethereum
  | 1 => pure .solana
  | other => Parser.fail (.error (.unknownTag "chain" other))

def assetKindFromTag (tag : UInt8) : Parser Fault AssetKind :=
  match tag with
  | 0 => pure .native
  | 1 => pure .token
  | other => Parser.fail (.error (.unknownTag "asset_kind" other))

def stateFromTag (tag : UInt8) : Parser Fault ExecutionState :=
  match tag with
  | 0 => pure .initialized
  | 1 => pure .funded
  | 2 => pure .conditionsMet
  | other => Parser.fail (.error (.unknownTag "execution_state" other))

/-- The outcome tag, followed by the state on success. -/
def outcomeFromTag (tag : UInt8) : Parser Fault ExecutionResult :=
  match tag with
  | 0 => pure .failure
  | 1 => do
    let state ← stateFromTag (← Reader.u8)
    return .success state
  | other => Parser.fail (.error (.unknownTag "outcome" other))

def readCommitment : Parser Fault PublicCommitment := do
  let version ← Reader.u8
  Parser.check (version = journalVersion) (.error (.unknownVersion version))
  let chain ← chainFromTag (← Reader.u8)
  let outcome ← outcomeFromTag (← Reader.u8)
  let agentId ← Reader.lengthPrefixed
  let escrowId ← Reader.u64
  let sender ← Reader.lengthPrefixed
  let recipient ← Reader.lengthPrefixed
  let assetKind ← assetKindFromTag (← Reader.u8)
  let assetToken ← Reader.lengthPrefixed
  let amount := ofBE (← Reader.take amountWidth)
  let condition ← Reader.array32
  Reader.finish
  return {
    chain, agentId, escrowId, sender, recipient, assetKind, assetToken, amount, condition, outcome }

/-- Parses a commitment back from journal bytes. -/
def PublicCommitment.fromJournalBytes (bytes : Bytes) : Except Fault PublicCommitment :=
  readCommitment.parse bytes

end Zescrow
