import Mathlib.Data.Nat.Notation

/-!
# Errors

The error types of the core crate. An error of a third-party crate is carried as the text it is
displayed as.
-/

namespace Zescrow

/-- Errors from hashlock verification. -/
inductive HashlockError where
  | mismatch
  deriving DecidableEq, Repr

/-- Errors from signature verification. The Ed25519 and the Secp256k1 module each declare these
three variants. -/
inductive SignatureError where
  | invalidPublicKey (e : String)
  | invalidSignature (e : String)
  | verificationFailed
  deriving DecidableEq, Repr

/-- Errors from threshold verification. -/
inductive ThresholdError where
  | zeroThreshold
  | thresholdUnsatisfiable (required available : ℕ)
  | thresholdNotMet (required satisfied : ℕ)
  deriving DecidableEq, Repr

/-- Errors related to cryptographic condition verification. -/
inductive ConditionError where
  | hashlock (e : HashlockError)
  | ed25519 (e : SignatureError)
  | secp256k1 (e : SignatureError)
  | threshold (e : ThresholdError)
  deriving DecidableEq, Repr

/-- Errors related to identity parsing and validation. -/
inductive IdentityError where
  | emptyIdentity
  | inputTooLong (len max : ℕ)
  | hex (e : String)
  | base58 (e : String)
  | base64 (e : String)
  | unsupportedFormat
  deriving DecidableEq, Repr

/-- Errors related to asset validation. -/
inductive AssetError where
  | zeroAmount
  | missingId
  deriving DecidableEq, Repr

/-- Errors arising from escrow operations. -/
inductive EscrowError where
  | condition (e : ConditionError)
  | invalidState
  | identity (e : IdentityError)
  | asset (e : AssetError)
  | io (e : String)
  | json (e : String)
  deriving DecidableEq, Repr

/-- Errors encoding or decoding the public-commitment journal. -/
inductive CommitmentError where
  | amountTooLarge
  | fieldTooLong (len : ℕ)
  | truncated (offset : ℕ)
  | trailingBytes (offset : ℕ)
  | unknownVersion (version : UInt8)
  | unknownTag (field : String) (value : UInt8)
  deriving DecidableEq, Repr

end Zescrow
