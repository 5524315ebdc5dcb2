import Zescrow.Core.Condition

/-!
# Identities

An identity is stored under the encoding it was parsed in, and `toBytes` decodes it to the raw
address bytes that enter the journal. Decoding is the business of the encoding crates.
-/

open Foundation

namespace Zescrow

/-- Supported encoding formats for on-chain identities. -/
inductive ID where
  | hex (s : Str)
  | base58 (s : Str)
  | base64 (s : Str)
  | bytes (b : Bytes)
  deriving DecidableEq

/-- A participant in the escrow protocol. -/
structure Party where
  identity : ID
  deriving DecidableEq

/-- `s` without its leading `p`, when it starts with `p`. -/
def stripPrefix (p s : Str) : Option Str :=
  if p <+: s then some (s.drop p.length) else none

section

variable (K : Crates)

/-- Decode an identity into its raw byte representation. -/
def ID.toBytes : ID → Except EscrowError Bytes
  | .hex s =>
    let stripped := (stripPrefix ['0', 'x'] s).getD s
    (K.hexDecode stripped).mapError fun e ↦ .identity (.hex e)
  | .base58 s => (K.bs58Decode s).mapError fun e ↦ .identity (.base58 e)
  | .base64 s => (K.base64Decode s).mapError fun e ↦ .identity (.base64 e)
  | .bytes b => .ok b

/-- Verifies that an identity can be decoded into raw bytes, and that it is not empty. -/
def ID.validate (id : ID) : Except EscrowError Unit := do
  let idBytes ← id.toBytes K
  ensure (idBytes ≠ []) (.identity .emptyIdentity)

def Party.verifyIdentity (p : Party) : Except EscrowError Unit := p.identity.validate K

def Party.toBytes (p : Party) : Except EscrowError Bytes := p.identity.toBytes K

end

theorem ID.validate_eq_ok {K : Crates} {id : ID} :
    id.validate K = .ok () ↔ ∃ b, id.toBytes K = .ok b ∧ b ≠ [] := by
  simp [validate, bind_eq_ok]

end Zescrow
