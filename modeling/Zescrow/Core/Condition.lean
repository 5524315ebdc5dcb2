import Zescrow.Core.Error
import Zescrow.Foundation.Bytes
import Zescrow.Foundation.Outcome
import Zescrow.Foundation.Sha256

/-!
# Cryptographic conditions

A condition is a tree: the leaves are a SHA-256 preimage or a signature to be exhibited, an inner
node asks for a number of its subconditions. Each node carries its public parameters and, at a
leaf, the witness. `verify` checks the witnesses; `commitment` hashes the public parameters only.

SHA-256 and the two signature schemes come from third-party crates and are parameters.
-/

open Foundation

namespace Zescrow

/-- A Rust string, as its characters. -/
abbrev Str := List Char

/-- A signature crate: key and signature parsing, and verification of parsed values. -/
structure SignatureScheme where
  /-- A parsed verifying key. -/
  Key : Type
  /-- A parsed signature. -/
  Signature : Type
  parseKey : Bytes → Except String Key
  parseSignature : Bytes → Except String Signature
  verify : Key → Bytes → Signature → Bool

/-- The third-party crates the core relies on: `hex`, `bs58`, `base64`, `sha2`, `ed25519_dalek` and
`k256`. -/
structure Crates where
  hexDecode : Str → Except String Bytes
  bs58Decode : Str → Except String Bytes
  base64Decode : Str → Except String Bytes
  sha256 : Bytes → FixedBytes 32
  ed25519 : SignatureScheme
  secp256k1 : SignatureScheme

/-! ## Crates to run samples with -/

/-- The compressed SEC1 encoding of the Secp256k1 generator. -/
def secp256k1Generator : Bytes :=
  [0x02, 0x79, 0xbe, 0x66, 0x7e, 0xf9, 0xdc, 0xbb, 0xac, 0x55, 0xa0, 0x62, 0x95, 0xce, 0x87, 0x0b,
    0x07, 0x02, 0x9b, 0xfc, 0xdb, 0x2d, 0xce, 0x28, 0xd9, 0x59, 0xf2, 0x81, 0x5b, 0x16, 0xf8, 0x17,
    0x98]

/-- Knows one key and no signature. -/
def SignatureScheme.sample (key : Bytes) : SignatureScheme where
  Key := Bytes
  Signature := Empty
  parseKey b := if b = key then .ok b else .error "invalid key"
  parseSignature _ := .error "invalid signature"
  verify _ _ := Empty.elim

/-- The real SHA-256, with decoders and signature schemes that know just enough for the samples. -/
def Crates.sample : Crates where
  hexDecode s := if s = [] then .ok [] else .error "invalid hex"
  bs58Decode s := if s = [] then .ok [] else .error "invalid base58"
  base64Decode s := if s = [] then .ok [] else .error "invalid base64"
  sha256 := Sha256.digest
  ed25519 := .sample []
  secp256k1 := .sample secp256k1Generator

/-! ## Conditions -/

/-- A hashlock condition requiring SHA-256 preimage verification. -/
structure Hashlock where
  /-- The expected SHA-256 digest of the preimage. -/
  hash : FixedBytes 32
  /-- Secret preimage. -/
  preimage : Bytes
  deriving DecidableEq

/-- An Ed25519 signature condition. -/
structure Ed25519 where
  publicKey : FixedBytes 32
  signature : Bytes
  message : Bytes
  deriving DecidableEq

/-- A Secp256k1 ECDSA signature condition. The key is stored as whatever bytes were supplied. -/
structure Secp256k1 where
  publicKey : Bytes
  signature : Bytes
  message : Bytes
  deriving DecidableEq

/-- A condition that can be deterministically verified. The threshold is a `usize`, whose width
depends on the platform, so it is any natural number here. -/
inductive Condition where
  | hashlock (hashlock : Hashlock)
  | ed25519 (ed25519 : Ed25519)
  | secp256k1 (secp256k1 : Secp256k1)
  | threshold (threshold : ℕ) (subconditions : List Condition)

/-! ## Verification -/

section Verify

variable (K : Crates)

/-- The steps both signature modules take: parse the key, parse the signature, verify. -/
def SignatureScheme.check (S : SignatureScheme) (publicKey message signature : Bytes) :
    Except SignatureError Unit := do
  let pk ← (S.parseKey publicKey).mapError .invalidPublicKey
  let sig ← (S.parseSignature signature).mapError .invalidSignature
  ensure (S.verify pk message sig) .verificationFailed

def Hashlock.verify (h : Hashlock) : Except HashlockError Unit :=
  ensure (K.sha256 h.preimage = h.hash) .mismatch

def Ed25519.verify (e : Ed25519) : Except SignatureError Unit :=
  K.ed25519.check e.publicKey.1 e.message e.signature

def Secp256k1.verify (s : Secp256k1) : Except SignatureError Unit :=
  K.secp256k1.check s.publicKey s.message s.signature

/-- A threshold node over `available` subconditions of which `satisfied` verify. -/
def Threshold.verify (threshold available satisfied : ℕ) : Except ThresholdError Unit :=
  match threshold with
  | 0 => .error .zeroThreshold
  | required =>
    if available < required then .error (.thresholdUnsatisfiable required available)
    else ensure (required ≤ satisfied) (.thresholdNotMet required satisfied)

mutual

/-- Validates the provided witness data. -/
def Condition.verify : Condition → Except EscrowError Unit
  | .hashlock h => (h.verify K).mapError fun e ↦ .condition (.hashlock e)
  | .ed25519 e => (e.verify K).mapError fun e ↦ .condition (.ed25519 e)
  | .secp256k1 s => (s.verify K).mapError fun e ↦ .condition (.secp256k1 e)
  | .threshold required subconditions =>
    (Threshold.verify required subconditions.length
      (Condition.countSatisfied subconditions)).mapError fun e ↦ .condition (.threshold e)

/-- Counts the subconditions that verify successfully. -/
def Condition.countSatisfied : List Condition → ℕ
  | [] => 0
  | c :: cs =>
    (match Condition.verify c with
      | .ok _ => 1
      | .error _ => 0) + Condition.countSatisfied cs

end

end Verify

/-! ## Commitment -/

/-- Normalizes a count to a fixed-width `u32`. -/
def saturatingU32 (value : ℕ) : ℕ := if value < 2 ^ 32 then value else 2 ^ 32 - 1

section Commitment

variable (K : Crates)

mutual

/-- A SHA-256 commitment to a condition, excluding the secret witness. -/
def Condition.commitment : Condition → FixedBytes 32
  | .hashlock h => K.sha256 (ascii "ZESCROW_COND_HASHLOCK_V1" ++ h.hash.1)
  | .ed25519 e => K.sha256 (ascii "ZESCROW_COND_ED25519_V1" ++ e.publicKey.1 ++ e.message)
  | .secp256k1 s => K.sha256 (ascii "ZESCROW_COND_SECP256K1_V1" ++ s.publicKey ++ s.message)
  | .threshold required subconditions =>
    K.sha256 (ascii "ZESCROW_COND_THRESHOLD_V1"
      ++ toBE 4 (saturatingU32 required)
      ++ toBE 4 (saturatingU32 subconditions.length)
      ++ Condition.commitments subconditions)

/-- The commitments of the subconditions, as they are fed to the hasher. -/
def Condition.commitments : List Condition → Bytes
  | [] => []
  | c :: cs => (Condition.commitment c).1 ++ Condition.commitments cs

end

end Commitment

/-! ## Induction and verification rules -/

/-- Induction on a condition, with the hypothesis for every subcondition. -/
@[elab_as_elim, induction_eliminator]
theorem Condition.induction {motive : Condition → Prop} (hashlock : ∀ h, motive (.hashlock h))
    (ed25519 : ∀ e, motive (.ed25519 e)) (secp256k1 : ∀ s, motive (.secp256k1 s))
    (threshold : ∀ n cs, (∀ c ∈ cs, motive c) → motive (.threshold n cs)) :
    ∀ c, motive c
  | .hashlock h => hashlock h
  | .ed25519 e => ed25519 e
  | .secp256k1 s => secp256k1 s
  | .threshold n cs => threshold n cs fun c _ ↦ Condition.induction hashlock ed25519 secp256k1
      threshold c

@[simp] theorem mapError_eq_ok {ε ε' α : Type} {x : Except ε α} {f : ε → ε'} {a : α} :
    x.mapError f = .ok a ↔ x = .ok a := by
  cases x <;> simp [Except.mapError]

/-- The check succeeds. -/
def Condition.Satisfied (K : Crates) (c : Condition) : Prop := c.verify K = .ok ()

instance (K : Crates) (c : Condition) : Decidable (c.Satisfied K) :=
  match h : c.verify K with
  | .ok () => isTrue h
  | .error e => isFalse fun h' ↦ by
    rw [Condition.Satisfied, h] at h'
    exact absurd h' error_ne_ok

theorem Condition.satisfied_hashlock {K : Crates} {h : Hashlock} :
    (Condition.hashlock h).Satisfied K ↔ K.sha256 h.preimage = h.hash := by
  rw [Satisfied, verify, mapError_eq_ok, Hashlock.verify, ensure_eq_ok]

theorem Condition.satisfied_ed25519 {K : Crates} {e : Ed25519} :
    (Condition.ed25519 e).Satisfied K ↔
      K.ed25519.check e.publicKey.1 e.message e.signature = .ok () := by
  rw [Satisfied, verify, mapError_eq_ok, Ed25519.verify]

theorem Condition.satisfied_secp256k1 {K : Crates} {s : Secp256k1} :
    (Condition.secp256k1 s).Satisfied K ↔
      K.secp256k1.check s.publicKey s.message s.signature = .ok () := by
  rw [Satisfied, verify, mapError_eq_ok, Secp256k1.verify]

theorem SignatureScheme.parseKey_of_check {S : SignatureScheme} {pk msg sig : Bytes}
    (h : S.check pk msg sig = .ok ()) : ∃ k, S.parseKey pk = .ok k := by
  rw [SignatureScheme.check, bind_eq_ok] at h
  obtain ⟨k, hk, -⟩ := h
  exact ⟨k, mapError_eq_ok.mp hk⟩

theorem Threshold.verify_eq_ok {threshold available satisfied : ℕ} :
    Threshold.verify threshold available satisfied = .ok () ↔
      0 < threshold ∧ threshold ≤ available ∧ threshold ≤ satisfied := by
  cases threshold with
  | zero => simp [Threshold.verify]
  | succ n =>
    by_cases h : available < n + 1
    · simp only [Threshold.verify, if_pos h]
      constructor
      · exact fun h' ↦ absurd h' error_ne_ok
      · omega
    · simp only [Threshold.verify, if_neg h, ensure_eq_ok]
      omega

theorem Condition.countSatisfied_eq (K : Crates) (cs : List Condition) :
    countSatisfied K cs = cs.countP (·.Satisfied K) := by
  induction cs with
  | nil => rfl
  | cons c cs ih =>
    rw [countSatisfied, ih, List.countP_cons, Nat.add_comm]
    congr 1
    cases h : c.verify K with
    | ok u => simp [Satisfied, h]
    | error e => simp [Satisfied, h]

theorem Condition.satisfied_threshold {K : Crates} {n : ℕ} {cs : List Condition} :
    (Condition.threshold n cs).Satisfied K ↔
      0 < n ∧ n ≤ cs.countP (·.Satisfied K) := by
  rw [Satisfied, verify, mapError_eq_ok, Threshold.verify_eq_ok, countSatisfied_eq]
  have hle : cs.countP (·.Satisfied K) ≤ cs.length := List.countP_le_length
  omega

end Zescrow
