import Zescrow.Foundation.Parser

/-!
# The verifier router's instruction

The escrow program hands the router raw instruction data. Anchor's dispatcher compares the first
eight bytes with the discriminator of `verify` and decodes the arguments from what follows, in Borsh
and from the front: a byte vector behind its 32-bit little-endian length and two arrays of 32 bytes.
It does not ask for the data to end there. What the router then makes of the arguments is its own
business.
-/

open Foundation

namespace Zescrow.Solana

/-- The arguments of the router's `verify`. -/
structure VerifyArgs where
  receiptSeal : Bytes
  imageId : FixedBytes 32
  journalDigest : FixedBytes 32
  deriving DecidableEq

/-- `sha256("global:verify")[..8]`. -/
def verifyDiscriminator (sha256 : Bytes → FixedBytes 32) : Bytes :=
  (sha256 (ascii "global:verify")).1.take 8

/-- The Borsh decoder of the arguments. -/
def readVerifyArgs : Parser Unit VerifyArgs := do
  let len ← Parser.take (fun _ ↦ ()) 4
  let receiptSeal ← Parser.take (fun _ ↦ ()) (ofLE len)
  let imageId ← Parser.takeFixed (fun _ ↦ ()) 32
  let journalDigest ← Parser.takeFixed (fun _ ↦ ()) 32
  return { receiptSeal, imageId, journalDigest }

/-- The Borsh encoding of the arguments. -/
def VerifyArgs.encode (a : VerifyArgs) : Bytes :=
  toLE 4 a.receiptSeal.length ++ a.receiptSeal ++ (a.imageId.1 ++ a.journalDigest.1)

/-- A call of the router whose decision on arguments is `check`: the arguments it accepted. -/
def routerVerify (sha256 : Bytes → FixedBytes 32) (check : VerifyArgs → Bool) (data : Bytes) :
    Option VerifyArgs :=
  if data.take 8 = verifyDiscriminator sha256 then
    match readVerifyArgs.parse (data.drop 8) with
    | .ok args => if check args then some args else none
    | .error _ => none
  else none

/-- The stand-in the repository tests with: it looks at the first byte of the seal. -/
def mockVerify (args : VerifyArgs) : Bool := args.receiptSeal.head? = some 1

theorem length_verifyDiscriminator (sha256 : Bytes → FixedBytes 32) :
    (verifyDiscriminator sha256).length = 8 := by
  rw [verifyDiscriminator, List.length_take, (sha256 _).2]
  rfl

theorem exact_readVec :
    Parser.Exact (Parser.take (fun _ ↦ ()) 4 >>= fun len ↦ Parser.take (fun _ ↦ ()) (ofLE len))
      fun (x : Bytes) b ↦ x.length < 2 ^ 32 ∧ b = toLE 4 x.length ++ x := by
  refine (Parser.exact_bind (Parser.exact_take _ 4) fun len ↦ Parser.exact_take _ _).congr
    fun x b ↦ ?_
  constructor
  · rintro ⟨len, _, t, rfl, ⟨rfl, hlen⟩, rfl, hx⟩
    have hlt := ofLE_lt len
    rw [hlen] at hlt
    rw [hx, ← hlen, toLE_ofLE]
    exact ⟨hlt, rfl⟩
  · rintro ⟨hlt, rfl⟩
    exact ⟨_, _, x, rfl, ⟨rfl, length_toLE _ _⟩, rfl, (ofLE_toLE hlt).symm⟩

theorem exact_readVerifyArgs : Parser.Exact readVerifyArgs fun a b ↦
    a.receiptSeal.length < 2 ^ 32 ∧ b = a.encode := by
  have hassoc : readVerifyArgs = (do
      let receiptSeal ← Parser.take (fun _ ↦ ()) 4 >>= fun len ↦
        Parser.take (fun _ ↦ ()) (ofLE len)
      let imageId ← Parser.takeFixed (fun _ ↦ ()) 32
      let journalDigest ← Parser.takeFixed (fun _ ↦ ()) 32
      return { receiptSeal, imageId, journalDigest }) := by
    simp only [readVerifyArgs, bind_assoc]
  rw [hassoc]
  refine (Parser.exact_bind exact_readVec fun receiptSeal ↦
    Parser.exact_bind (Parser.exact_takeFixed _ 32) fun imageId ↦
    Parser.exact_bind (Parser.exact_takeFixed _ 32) fun journalDigest ↦
    Parser.exact_pure _).congr fun a b ↦ ?_
  simp only [Parser.seq_iff]
  constructor
  · rintro ⟨receiptSeal, _, rfl, hlen, imageId, _, rfl, -, journalDigest, _, rfl, -, rfl, rfl⟩
    refine ⟨hlen, ?_⟩
    rw [VerifyArgs.encode, List.append_nil]
  · rintro ⟨hlen, rfl⟩
    exact ⟨a.receiptSeal, _, rfl, hlen, a.imageId, _, rfl, trivial, a.journalDigest, [],
      (List.append_nil _).symm, trivial, rfl, rfl⟩

/-- **What the router accepts**: the discriminator, an encoding of arguments it approves of, and
then anything. -/
theorem routerVerify_eq_some {sha256 : Bytes → FixedBytes 32} {check : VerifyArgs → Bool}
    {data : Bytes} {args : VerifyArgs} : routerVerify sha256 check data = some args ↔
      check args = true ∧ args.receiptSeal.length < 2 ^ 32 ∧
        ∃ rest, data = verifyDiscriminator sha256 ++ (args.encode ++ rest) := by
  have hparse {s : Bytes} {a : VerifyArgs} : readVerifyArgs.parse s = .ok a ↔
      ∃ b rest, s = b ++ rest ∧ a.receiptSeal.length < 2 ^ 32 ∧ b = a.encode :=
    (exact_readVerifyArgs 0).parse_eq_ok
  have hdisc := length_verifyDiscriminator sha256
  rw [routerVerify]
  constructor
  · intro h
    split at h
    · next htake =>
      split at h
      · next a ha =>
        split at h
        · next hcheck =>
          obtain rfl := Option.some.inj h
          obtain ⟨_, rest, hdrop, hlen, rfl⟩ := hparse.mp ha
          refine ⟨hcheck, hlen, rest, ?_⟩
          rw [← htake, ← hdrop, List.take_append_drop]
        · exact absurd h.symm (Option.some_ne_none _)
      · exact absurd h.symm (Option.some_ne_none _)
    · exact absurd h.symm (Option.some_ne_none _)
  · rintro ⟨hcheck, hlen, rest, rfl⟩
    rw [if_pos (List.take_left' hdisc), List.drop_left' hdisc,
      hparse.mpr ⟨_, rest, rfl, hlen, rfl⟩]
    exact if_pos hcheck

end Zescrow.Solana
