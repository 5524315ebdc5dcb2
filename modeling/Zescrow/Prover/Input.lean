import Zescrow.Foundation.Bincode
import Zescrow.Prover.Guest

/-!
# The frame between host and guest

The prover encodes its input with bincode, and the guest decodes the frame. The codecs are derived,
field by field and variant by variant in the order of declaration; only the codec of amounts is
written by hand, through their little-endian bytes. The host has 64-bit pointers and the guest
32-bit ones, which is visible in a threshold, a `usize`, and in the lengths that can be held.
-/

open Foundation Foundation.Bincode Foundation.Parser

namespace Zescrow

/-! ## Encoding -/

/-- `BigUint::to_bytes_le`: no zero byte at the end, except that zero is one zero byte. -/
def bigUintToBytesLE (n : ℕ) : Bytes := toLE (Nat.log 256 n + 1) n

def BigNumber.encode (n : BigNumber) : Bytes := byteVec (bigUintToBytesLE n)

def ID.encode : ID → Bytes
  | .hex s => varint 0 ++ string s
  | .base58 s => varint 1 ++ string s
  | .base64 s => varint 2 ++ string s
  | .bytes b => varint 3 ++ byteVec b

def Party.encode (p : Party) : Bytes := p.identity.encode

/-- The variants in the order of declaration. -/
def AssetKind.variants : List AssetKind := [.native, .token]

def Chain.variants : List Chain := [.ethereum, .solana]

def ExecutionState.variants : List ExecutionState := [.initialized, .funded, .conditionsMet]

def Asset.encode (a : Asset) : Bytes :=
  unitVariant AssetKind.variants a.kind ++ (option ID.encode a.agentId ++
    (BigNumber.encode a.amount ++ option (fun d ↦ [d]) a.decimals))

def Hashlock.encode (h : Hashlock) : Bytes := h.hash.1 ++ byteVec h.preimage

def Ed25519.encode (e : Ed25519) : Bytes :=
  e.publicKey.1 ++ (byteVec e.signature ++ byteVec e.message)

def Secp256k1.encode (s : Secp256k1) : Bytes :=
  byteVec s.publicKey ++ (byteVec s.signature ++ byteVec s.message)

mutual

def Condition.encode : Condition → Bytes
  | .hashlock h => varint 0 ++ h.encode
  | .ed25519 e => varint 1 ++ e.encode
  | .secp256k1 s => varint 2 ++ s.encode
  | .threshold required subconditions =>
    varint 3 ++ (varint required ++
      (varint subconditions.length ++ Condition.encodeAll subconditions))

def Condition.encodeAll : List Condition → Bytes
  | [] => []
  | c :: cs => c.encode ++ Condition.encodeAll cs

end

def Escrow.encode (e : Escrow) : Bytes :=
  e.asset.encode ++ (e.recipient.encode ++ (e.sender.encode ++
    (option Condition.encode e.condition ++ unitVariant ExecutionState.variants e.state)))

/-- The frame written for the guest. -/
def ProofInput.encode (x : ProofInput) : Bytes :=
  x.escrow.encode ++ (unitVariant Chain.variants x.chain ++
    (x.agentId.encode ++ varint x.escrowId.toNat))

/-! ## Decoding -/

section

variable (p : PointerWidth)

def BigNumber.decode : Reader BigNumber := do
  let bytes ← readByteVec p
  pure (ofLE bytes)

def ID.decode : Reader ID := do
  let variant ← readU32
  match variant with
  | 0 => do
    let s ← readString p
    pure (.hex s)
  | 1 => do
    let s ← readString p
    pure (.base58 s)
  | 2 => do
    let s ← readString p
    pure (.base64 s)
  | 3 => do
    let b ← readByteVec p
    pure (.bytes b)
  | found => fail (.unexpectedVariant found)

def Party.decode : Reader Party := do
  let identity ← ID.decode p
  pure ⟨identity⟩

def Asset.decode : Reader Asset := do
  let kind ← readUnitVariant AssetKind.variants
  let agentId ← readOption (ID.decode p)
  let amount ← BigNumber.decode p
  let decimals ← readOption readU8
  pure ⟨kind, agentId, amount, decimals⟩

def Hashlock.decode : Reader Hashlock := do
  let hash ← readArray 32
  let preimage ← readByteVec p
  pure ⟨hash, preimage⟩

def Ed25519.decode : Reader Ed25519 := do
  let publicKey ← readArray 32
  let signature ← readByteVec p
  let message ← readByteVec p
  pure ⟨publicKey, signature, message⟩

def Secp256k1.decode : Reader Secp256k1 := do
  let publicKey ← readByteVec p
  let signature ← readByteVec p
  let message ← readByteVec p
  pure ⟨publicKey, signature, message⟩

/-- A condition nested at most `fuel` deep. -/
def Condition.decodeNested : ℕ → Reader Condition
  | 0 => fail .unexpectedEnd
  | fuel + 1 => do
    let variant ← readU32
    match variant with
    | 0 => do
      let h ← Hashlock.decode p
      pure (.hashlock h)
    | 1 => do
      let e ← Ed25519.decode p
      pure (.ed25519 e)
    | 2 => do
      let s ← Secp256k1.decode p
      pure (.secp256k1 s)
    | 3 => do
      let required ← readUsize p
      let subconditions ← readVec p (Condition.decodeNested fuel)
      pure (.threshold required subconditions)
    | found => fail (.unexpectedVariant found)

/-- Every level takes a byte at least, so nesting deeper than the input is long ends too early. -/
def Condition.decode : Reader Condition := fun c ↦ Condition.decodeNested p c.bytes.length c

def Escrow.decode : Reader Escrow := do
  let asset ← Asset.decode p
  let recipient ← Party.decode p
  let sender ← Party.decode p
  let condition ← readOption (Condition.decode p)
  let state ← readUnitVariant ExecutionState.variants
  pure ⟨asset, recipient, sender, condition, state⟩

def ProofInput.decode : Reader ProofInput := do
  let escrow ← Escrow.decode p
  let chain ← readUnitVariant Chain.variants
  let agentId ← ID.decode p
  let escrowId ← readU64
  pure ⟨escrow, chain, agentId, UInt64.ofNat escrowId⟩

end

/-- The guest's decoding of its frame. -/
def ProofInput.ofFrame : DecodeInput := fun frame ↦
  ((decodeFromSlice (ProofInput.decode .bits32) frame).map Prod.fst).mapError fun e ↦ reprStr e

/-! ## Reading back what was written -/

section

variable {p : PointerWidth}

theorem ofLE_bigUintToBytesLE (n : ℕ) : ofLE (bigUintToBytesLE n) = n :=
  ofLE_toLE (Nat.lt_pow_succ_log_self (by norm_num) n)

theorem BigNumber.reads {n : BigNumber} (h : Fits p (BigNumber.encode n)) :
    Reads (BigNumber.decode p) n (BigNumber.encode n) := by
  have hread := (reads_byteVec h).bind_pure (g := ofLE)
  rwa [ofLE_bigUintToBytesLE] at hread

theorem ID.reads {id : ID} (h : Fits p id.encode) : Reads (ID.decode p) id id.encode := by
  cases id with
  | hex s => exact (reads_u32 (by norm_num)).bind (reads_string h.right).bind_pure
  | base58 s => exact (reads_u32 (by norm_num)).bind (reads_string h.right).bind_pure
  | base64 s => exact (reads_u32 (by norm_num)).bind (reads_string h.right).bind_pure
  | bytes b => exact (reads_u32 (by norm_num)).bind (reads_byteVec h.right).bind_pure

theorem Party.reads {q : Party} (h : Fits p q.encode) : Reads (Party.decode p) q q.encode :=
  (ID.reads h).bind_pure

theorem Asset.reads {a : Asset} (h : Fits p a.encode) : Reads (Asset.decode p) a a.encode := by
  have hkind : a.kind ∈ AssetKind.variants := by cases a.kind <;> decide
  refine (reads_unitVariant hkind (by decide)).bind ?_
  refine (reads_option fun id hid ↦ ID.reads ?_).bind ?_
  · have hid' := h.right.left
    rw [hid] at hid'
    exact hid'.tail
  refine (BigNumber.reads h.right.right.left).bind ?_
  exact (reads_option fun d _ ↦ reads_u8 d).bind_pure

theorem Hashlock.reads {l : Hashlock} (h : Fits p l.encode) :
    Reads (Hashlock.decode p) l l.encode :=
  (reads_array l.hash).bind (reads_byteVec h.right).bind_pure

theorem Ed25519.reads {e : Ed25519} (h : Fits p e.encode) :
    Reads (Ed25519.decode p) e e.encode :=
  (reads_array e.publicKey).bind
    ((reads_byteVec h.right.left).bind (reads_byteVec h.right.right).bind_pure)

theorem Secp256k1.reads {s : Secp256k1} (h : Fits p s.encode) :
    Reads (Secp256k1.decode p) s s.encode :=
  (reads_byteVec h.left).bind
    ((reads_byteVec h.right.left).bind (reads_byteVec h.right.right).bind_pure)

end

/-! ## Conditions -/

/-- Every threshold in the tree is a `u32`. -/
inductive Condition.NarrowThresholds : Condition → Prop
  | hashlock (h : Hashlock) : NarrowThresholds (.hashlock h)
  | ed25519 (e : Ed25519) : NarrowThresholds (.ed25519 e)
  | secp256k1 (s : Secp256k1) : NarrowThresholds (.secp256k1 s)
  | threshold {required : ℕ} {subconditions : List Condition} (hrequired : required < 2 ^ 32)
      (hsub : ∀ c ∈ subconditions, NarrowThresholds c) :
      NarrowThresholds (.threshold required subconditions)

theorem Condition.encodeAll_eq (cs : List Condition) : encodeAll cs = cs.flatMap encode := by
  induction cs with
  | nil => rfl
  | cons c cs ih => rw [encodeAll, ih, List.flatMap_cons]

theorem Condition.encode_threshold (required : ℕ) (cs : List Condition) :
    (threshold required cs).encode = varint 3 ++ (varint required ++ vec encode cs) := by
  rw [encode, encodeAll_eq, vec]

theorem Condition.encode_ne_nil (c : Condition) : c.encode ≠ [] := by
  have hne (n : ℕ) (b : Bytes) : varint n ++ b ≠ [] := fun h ↦
    varint_ne_nil n (List.append_eq_nil_iff.mp h).1
  cases c <;> exact hne _ _

theorem Condition.length_encode_lt (required : ℕ) {cs : List Condition} {c : Condition}
    (hc : c ∈ cs) : c.encode.length < (threshold required cs).encode.length := by
  obtain ⟨cs₁, cs₂, rfl⟩ := List.append_of_mem hc
  have htag := List.length_pos_iff.mpr (varint_ne_nil 3)
  rw [encode_threshold, vec, List.flatMap_append, List.flatMap_cons]
  simp only [List.length_append]
  omega

section

variable {p : PointerWidth}

/-- By induction on the fuel, which falls with the length of what is read. -/
theorem Condition.reads_nested {fuel : ℕ} {c : Condition} (hc : c.NarrowThresholds)
    (hfuel : c.encode.length ≤ fuel) (h : Fits p c.encode) :
    Reads (decodeNested p fuel) c c.encode := by
  induction fuel generalizing c with
  | zero => exact absurd (List.length_eq_zero_iff.mp (Nat.le_zero.mp hfuel)) c.encode_ne_nil
  | succ fuel ih =>
    cases hc with
    | hashlock l => exact (reads_u32 (by norm_num)).bind (Hashlock.reads h.right).bind_pure
    | ed25519 e => exact (reads_u32 (by norm_num)).bind (Ed25519.reads h.right).bind_pure
    | secp256k1 s => exact (reads_u32 (by norm_num)).bind (Secp256k1.reads h.right).bind_pure
    | @threshold required cs hrequired hsub =>
      have hitem : ∀ c ∈ cs, Fits p c.encode → Reads (decodeNested p fuel) c c.encode := by
        intro c hc hfits
        have hlt := length_encode_lt required hc
        exact ih (hsub c hc) (by omega) hfits
      rw [encode_threshold] at h ⊢
      refine (reads_u32 (by norm_num)).bind ?_
      refine (reads_usize (hrequired.trans_le p.le_limit)).bind ?_
      exact (reads_vec h.right.right (fun c _ ↦ c.encode_ne_nil) hitem).bind_pure

theorem Condition.reads {c : Condition} (hc : c.NarrowThresholds) (h : Fits p c.encode) :
    Reads (Condition.decode p) c c.encode := by
  intro pre rest
  refine reads_nested hc ?_ h pre rest
  simp only [List.length_append]
  omega

/-! ## The frame -/

theorem Escrow.reads {e : Escrow} (hc : ∀ c, e.condition = some c → c.NarrowThresholds)
    (h : Fits p e.encode) : Reads (Escrow.decode p) e e.encode := by
  have hstate : e.state ∈ ExecutionState.variants := by cases e.state <;> decide
  refine (Asset.reads h.left).bind ?_
  refine (Party.reads h.right.left).bind ?_
  refine (Party.reads h.right.right.left).bind ?_
  refine (reads_option fun c hcond ↦ Condition.reads (hc c hcond) ?_).bind ?_
  · have hcond' := h.right.right.right.left
    rw [hcond] at hcond'
    exact hcond'.tail
  · exact (reads_unitVariant hstate (by decide)).bind_pure

theorem ProofInput.reads {x : ProofInput}
    (hc : ∀ c, x.escrow.condition = some c → c.NarrowThresholds) (h : Fits p x.encode) :
    Reads (ProofInput.decode p) x x.encode := by
  have hchain : x.chain ∈ Chain.variants := by cases x.chain <;> decide
  refine (Escrow.reads hc h.left).bind ?_
  refine (reads_unitVariant hchain (by decide)).bind ?_
  refine (ID.reads h.right.right.left).bind ?_
  have hid := (reads_u64 x.escrowId.toNat_lt).bind_pure
    (g := fun n ↦ (⟨x.escrow, x.chain, x.agentId, UInt64.ofNat n⟩ : ProofInput))
  rwa [UInt64.ofNat_toNat] at hid

/-- **The guest works on what the host has described.** A frame is decoded to the input it was
encoded from, to its last byte, on a machine that can hold it; so the guest commits the journal of
that input and of its execution, or fails where these cannot be encoded. -/
theorem ProofInput.frame_decoded (K : Crates) (x : ProofInput)
    (hc : ∀ c, x.escrow.condition = some c → c.NarrowThresholds) :
    (∀ p, Fits p x.encode →
      decodeFromSlice (ProofInput.decode p) x.encode = .ok (x, x.encode.length)) ∧
    (Fits .bits32 x.encode → ∀ journal, Guest.main K ProofInput.ofFrame x.encode = .ok journal ↔
      ∃ c, PublicCommitment.new K x (Guest.outcome (x.escrow.execute K).1) = .ok c ∧
        c.toJournalBytes = .ok journal) := by
  have hdecode (p : PointerWidth) (h : Fits p x.encode) :
      decodeFromSlice (ProofInput.decode p) x.encode = .ok (x, x.encode.length) :=
    decodeFromSlice_of_reads (ProofInput.reads hc h)
  refine ⟨hdecode, fun h journal ↦ ?_⟩
  have hframe : ProofInput.ofFrame x.encode = .ok x := by
    rw [ProofInput.ofFrame, hdecode .bits32 h]
    rfl
  rw [Guest.main_eq_ok, hframe]
  constructor
  · rintro ⟨input, c, hinput, hnew, hjournal⟩
    obtain rfl := Except.ok.inj hinput
    exact ⟨c, hnew, hjournal⟩
  · rintro ⟨c, hnew, hjournal⟩
    exact ⟨x, c, rfl, hnew, hjournal⟩

end

/-- An input with a nested condition, whose threshold is as large as the guest can hold. -/
def ProofInput.nestedSample : ProofInput where
  escrow :=
    { asset := ⟨.token, some (.hex ['c', 'c']), 0, some 18⟩
      recipient := ⟨.base58 ['2']⟩
      sender := ⟨.bytes [1]⟩
      condition := some (.threshold (2 ^ 32 - 1)
        [.threshold 0 [], .hashlock ⟨.zero 32, [7]⟩, .secp256k1 ⟨[], [], [8]⟩])
      state := .funded }
  chain := .solana
  agentId := .base64 []
  escrowId := 251

theorem ProofInput.frame_decoded_sample :
    decodeFromSlice (ProofInput.decode .bits32) nestedSample.encode = .ok (nestedSample, 74) ∧
    ∀ journal, Guest.main .sample ProofInput.ofFrame nestedSample.encode = .ok journal ↔
      ∃ c, PublicCommitment.new .sample nestedSample
          (Guest.outcome (nestedSample.escrow.execute .sample).1) = .ok c ∧
        c.toJournalBytes = .ok journal := by
  have hfits : Fits .bits32 nestedSample.encode := by
    rw [Fits]
    decide
  have hframe := ProofInput.frame_decoded .sample nestedSample fun c hc ↦ by
    obtain rfl := Option.some.inj hc
    refine .threshold (by norm_num) fun c hc ↦ ?_
    simp only [List.mem_cons, List.not_mem_nil, or_false] at hc
    rcases hc with rfl | rfl | rfl
    · exact .threshold (by norm_num) fun c hc ↦ absurd hc List.not_mem_nil
    · exact .hashlock _
    · exact .secp256k1 _
  exact ⟨hframe.1 .bits32 hfits, hframe.2 hfits⟩

end Zescrow
