import Zescrow.Foundation.Sha256
import Zescrow.Solana.Program

/-!
# Where the router finds its fields

`verify_release_proof` puts the seal in front of the image id and the journal digest and relies on
the seal to say how long it is. The router takes the length from the first four bytes of the data,
which are the recipient's. A seal that is as long as it says leaves the two trusted fields where
they belong, and one that is shorter is not decoded at all; but behind a seal that is longer than it
says the router finds the recipient's own bytes in their place.
-/

open Foundation

namespace Zescrow.Solana

/-- The two fields the program vouches for, as they are put behind the seal. -/
def trustedFields (sha256 : Bytes → FixedBytes 32) (imageId : FixedBytes 32)
    (escrow : EscrowAccount) : Bytes :=
  imageId.1 ++ (sha256 (reconstructJournal escrow)).1

/-- The length of the Borsh vector a seal announces in its first four bytes, these included. -/
def announcedLength (receiptSeal : Bytes) : ℕ := 4 + ofLE (receiptSeal.take 4)

/-- What a seal holds beyond the vector it announces. -/
def surplus (receiptSeal : Bytes) : Bytes := receiptSeal.drop (announcedLength receiptSeal)

/-- The two fields of the arguments, one after the other. -/
def VerifyArgs.fields (args : VerifyArgs) : Bytes := args.imageId.1 ++ args.journalDigest.1

theorem VerifyArgs.length_fields (args : VerifyArgs) : args.fields.length = 64 := by
  rw [fields, List.length_append, args.imageId.2, args.journalDigest.2]

theorem length_trustedFields (sha256 : Bytes → FixedBytes 32) (imageId : FixedBytes 32)
    (escrow : EscrowAccount) :
    (trustedFields sha256 imageId escrow).length = 64 := by
  rw [trustedFields, List.length_append, imageId.2, (sha256 _).2]

theorem fields_eq_trusted_iff {sha256 : Bytes → FixedBytes 32} {imageId : FixedBytes 32}
    {escrow : EscrowAccount}
    {args : VerifyArgs} : args.fields = trustedFields sha256 imageId escrow ↔
      (args.imageId, args.journalDigest) = (imageId, sha256 (reconstructJournal escrow)) := by
  rw [VerifyArgs.fields, trustedFields,
    append_inj_of_length (args.imageId.2.trans imageId.2.symm), Prod.mk.injEq, Subtype.ext_iff,
    Subtype.ext_iff]

/-- The router accepts the instruction data when the seal followed by the trusted fields starts with
the encoding of arguments it approves of. -/
theorem routerVerify_releaseProofData {sha256 : Bytes → FixedBytes 32} {check : VerifyArgs → Bool}
    {imageId : FixedBytes 32} {escrow : EscrowAccount} {receiptSeal : Bytes} {args : VerifyArgs} :
    routerVerify sha256 check (releaseProofData sha256 imageId escrow receiptSeal) = some args ↔
      check args = true ∧ args.receiptSeal.length < 2 ^ 32 ∧
        ∃ rest, receiptSeal ++ trustedFields sha256 imageId escrow = args.encode ++ rest := by
  have hdata : releaseProofData sha256 imageId escrow receiptSeal
      = verifyDiscriminator sha256 ++ (receiptSeal ++ trustedFields sha256 imageId escrow) := by
    rw [releaseProofData, trustedFields, List.append_assoc, List.append_assoc]
  rw [routerVerify_eq_some, hdata]
  simp only [List.append_cancel_left_eq]

theorem announcedLength_eq {receiptSeal vec : Bytes} (hlen : vec.length < 2 ^ 32)
    (htake : receiptSeal.take 4 = toLE 4 vec.length) :
    announcedLength receiptSeal = 4 + vec.length := by
  rw [announcedLength, htake, ofLE_toLE hlen]

/-- The vector the router decodes is the announced part of what was passed, and the fields are the
first 64 bytes after it. -/
theorem decoded_iff {trusted receiptSeal : Bytes} {args : VerifyArgs} (ht : trusted.length = 64) :
    (args.receiptSeal.length < 2 ^ 32 ∧ ∃ rest, receiptSeal ++ trusted = args.encode ++ rest) ↔
      announcedLength receiptSeal ≤ receiptSeal.length ∧
      toLE 4 args.receiptSeal.length ++ args.receiptSeal
        = receiptSeal.take (announcedLength receiptSeal) ∧
      args.fields <+: surplus receiptSeal ++ trusted := by
  have hencode : args.encode
      = toLE 4 args.receiptSeal.length ++ args.receiptSeal ++ args.fields := rfl
  have hvec : (toLE 4 args.receiptSeal.length ++ args.receiptSeal).length
      = 4 + args.receiptSeal.length := by rw [List.length_append, length_toLE]
  constructor
  · rintro ⟨hlen, rest, heq⟩
    rw [hencode, List.append_assoc] at heq
    -- The fields are as long as the trusted ones, so the vector lies within what was passed.
    have hle : 4 + args.receiptSeal.length ≤ receiptSeal.length := by
      have hlengths := congrArg List.length heq
      simp only [List.length_append, length_toLE, args.length_fields, ht] at hlengths
      omega
    have htake : receiptSeal.take (4 + args.receiptSeal.length)
        = toLE 4 args.receiptSeal.length ++ args.receiptSeal := by
      have h := congrArg (List.take (4 + args.receiptSeal.length)) heq
      rwa [List.take_append_of_le_length hle, List.take_left' hvec] at h
    have hfour : receiptSeal.take 4 = toLE 4 args.receiptSeal.length := by
      have h := congrArg (List.take 4) htake
      rwa [List.take_take, Nat.min_eq_left (Nat.le_add_right 4 _),
        List.take_left' (length_toLE _ _)] at h
    have hdrop : receiptSeal.drop (4 + args.receiptSeal.length) ++ trusted
        = args.fields ++ rest := by
      have h := congrArg (List.drop (4 + args.receiptSeal.length)) heq
      rwa [List.drop_append_of_le_length hle, List.drop_left' hvec] at h
    rw [surplus, announcedLength_eq hlen hfour]
    exact ⟨hle, htake.symm, rest, hdrop.symm⟩
  · rintro ⟨hle, htake, rest, hfields⟩
    have hlen : args.receiptSeal.length = ofLE (receiptSeal.take 4) := by
      have h := congrArg List.length htake
      rw [hvec, List.length_take_of_le hle, announcedLength] at h
      omega
    have hlt : ofLE (receiptSeal.take 4) < 2 ^ 32 := by
      have hpow : 256 ^ (receiptSeal.take 4).length ≤ 256 ^ 4 :=
        Nat.pow_le_pow_right (by norm_num) (List.length_take_le _ _)
      exact (ofLE_lt _).trans_le (hpow.trans_eq (by norm_num))
    refine ⟨hlen ▸ hlt, rest, ?_⟩
    rw [hencode, htake, List.append_assoc, hfields, surplus, ← List.append_assoc,
      List.take_append_drop]

/-- The arguments decoded from a seal that is at least as long as it announces. -/
def decodedArgs (trusted receiptSeal : Bytes) (ht : trusted.length = 64) : VerifyArgs where
  receiptSeal := (receiptSeal.drop 4).take (ofLE (receiptSeal.take 4))
  imageId := ⟨(surplus receiptSeal ++ trusted).take 32, by
    rw [List.length_take, List.length_append]; omega⟩
  journalDigest := ⟨((surplus receiptSeal ++ trusted).drop 32).take 32, by
    rw [List.length_take, List.length_drop, List.length_append]; omega⟩

theorem fields_decodedArgs (trusted receiptSeal : Bytes) (ht : trusted.length = 64) :
    (decodedArgs trusted receiptSeal ht).fields = (surplus receiptSeal ++ trusted).take 64 := by
  rw [VerifyArgs.fields, decodedArgs, ← List.take_add]

theorem decodedArgs_decoded {trusted receiptSeal : Bytes} (ht : trusted.length = 64)
    (hle : announcedLength receiptSeal ≤ receiptSeal.length) :
    (decodedArgs trusted receiptSeal ht).receiptSeal.length < 2 ^ 32 ∧
      ∃ rest, receiptSeal ++ trusted = (decodedArgs trusted receiptSeal ht).encode ++ rest := by
  have hfour : (receiptSeal.take 4).length = 4 :=
    List.length_take_of_le ((Nat.le_add_right 4 _).trans hle)
  have hlen : ((receiptSeal.drop 4).take (ofLE (receiptSeal.take 4))).length
      = ofLE (receiptSeal.take 4) := by
    refine List.length_take_of_le ?_
    rw [announcedLength] at hle
    rw [List.length_drop]
    omega
  refine (decoded_iff ht).mpr ⟨hle, ?_, ?_⟩
  · change toLE 4 ((receiptSeal.drop 4).take (ofLE (receiptSeal.take 4))).length ++
      (receiptSeal.drop 4).take (ofLE (receiptSeal.take 4)) = _
    rw [hlen, announcedLength, List.take_add, toLE_ofLE_of_length hfour]
  · rw [fields_decodedArgs]
    exact List.take_prefix _ _

/-- A seal whose surplus, followed by the trusted fields, starts with them leaves them in place. -/
theorem decoded_eq_trusted {sha256 : Bytes → FixedBytes 32} {check : VerifyArgs → Bool}
    {imageId : FixedBytes 32} {escrow : EscrowAccount} {receiptSeal : Bytes} {args : VerifyArgs}
    (h : trustedFields sha256 imageId escrow <+:
      surplus receiptSeal ++ trustedFields sha256 imageId escrow)
    (haccept : routerVerify sha256 check (releaseProofData sha256 imageId escrow receiptSeal)
      = some args) :
    (args.imageId, args.journalDigest) = (imageId, sha256 (reconstructJournal escrow)) := by
  have ht := length_trustedFields sha256 imageId escrow
  obtain ⟨-, hdecoded⟩ := routerVerify_releaseProofData.mp haccept
  obtain ⟨-, -, hfields⟩ := (decoded_iff ht).mp hdecoded
  have hlen : args.fields.length = (trustedFields sha256 imageId escrow).length :=
    args.length_fields.trans ht.symm
  have hpre := List.prefix_of_prefix_length_le hfields h hlen.le
  exact fields_eq_trusted_iff.mp (hpre.eq_of_length hlen)

/-- **When the router checks the fields the program vouches for.** Whatever the router accepts, the
fields it decoded are the pinned image id and the digest of the reconstructed journal if and only if
the surplus of the seal, followed by these fields, starts with them. A seal without surplus, as the
client sends it, does that. -/
theorem routerVerify_binds_iff (sha256 : Bytes → FixedBytes 32) (imageId : FixedBytes 32)
    (escrow : EscrowAccount) (receiptSeal : Bytes) :
    (∀ check args,
      routerVerify sha256 check (releaseProofData sha256 imageId escrow receiptSeal) = some args →
        (args.imageId, args.journalDigest) = (imageId, sha256 (reconstructJournal escrow))) ↔
    trustedFields sha256 imageId escrow <+:
      surplus receiptSeal ++ trustedFields sha256 imageId escrow := by
  have ht := length_trustedFields sha256 imageId escrow
  constructor
  · intro h
    -- A router that approves of everything shows which fields are decoded.
    by_cases hle : announcedLength receiptSeal ≤ receiptSeal.length
    · have haccept : routerVerify sha256 (fun _ ↦ true)
          (releaseProofData sha256 imageId escrow receiptSeal) = some
            (decodedArgs (trustedFields sha256 imageId escrow) receiptSeal ht) :=
        routerVerify_releaseProofData.mpr ⟨rfl, decodedArgs_decoded ht hle⟩
      have hfields := fields_eq_trusted_iff.mpr (h _ _ haccept)
      rw [fields_decodedArgs] at hfields
      have hpre := List.take_prefix 64 (surplus receiptSeal ++ trustedFields sha256 imageId escrow)
      rwa [hfields] at hpre
    · rw [surplus, List.drop_eq_nil_of_le (Nat.le_of_not_le hle)]
      exact List.prefix_rfl
  · intro h check args haccept
    exact decoded_eq_trusted h haccept

/-- A seal that announces one byte and goes on with an image id and a digest of the recipient's
choice. -/
def forgedSeal : Bytes := toLE 4 1 ++ [1] ++ List.replicate 32 7 ++ List.replicate 32 9

/-- A conditioned escrow. -/
def sampleEscrow : EscrowAccount where
  sender := ⟨List.replicate 32 1, rfl⟩
  recipient := ⟨List.replicate 32 2, rfl⟩
  amount := 1000000
  id := 1
  finishAfter := none
  cancelAfter := some 100
  condition := ⟨List.replicate 32 3, rfl⟩
  bump := 255

/-- Behind the forged seal the repository's own router stand-in finds the recipient's image id and
digest. -/
theorem routerVerify_forgedSeal :
    sampleEscrow.condition ≠ noCondition ∧
    routerVerify Sha256.digest mockVerify
        (releaseProofData Sha256.digest imageId sampleEscrow forgedSeal) =
      some ⟨[1], ⟨List.replicate 32 7, rfl⟩, ⟨List.replicate 32 9, rfl⟩⟩ ∧
    ((⟨List.replicate 32 7, rfl⟩, ⟨List.replicate 32 9, rfl⟩) : FixedBytes 32 × FixedBytes 32)
      ≠ (imageId, Sha256.digest (reconstructJournal sampleEscrow)) := by
  decide +kernel

end Zescrow.Solana
