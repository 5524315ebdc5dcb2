import Mathlib.Data.List.DropRight
import Zescrow.Core.JournalCodec
import Zescrow.Foundation.TextEncoding

/-!
# Identities as text

The encoders next to the decoders, how an identity is displayed, and how one is parsed when the
chain is known. An identity is displayed as the text it holds, whatever its encoding.
-/

open Foundation

namespace Zescrow

/-- The encoders of `hex`, `bs58` and `base64`, and the parser of Solana addresses. -/
structure Codecs extends Crates where
  hexEncode : Bytes → Str
  bs58Encode : Bytes → Str
  base64Encode : Bytes → Str
  pubkeyFromStr : Str → Except String (FixedBytes 32)

/-- The crates follow the standard alphabets, and a Solana address is 32 bytes in Base58. -/
structure Codecs.Standard (C : Codecs) : Prop where
  hexEncode : ∀ b, C.hexEncode b = Hex.encode b
  hexDecode : ∀ s b, C.hexDecode s = .ok b ↔ s.map Char.toLower = Hex.encode b
  bs58Encode : ∀ b, C.bs58Encode b = Base58.encode b
  bs58Decode : ∀ s b, C.bs58Decode s = .ok b ↔ s = Base58.encode b
  base64Encode : ∀ b, C.base64Encode b = Base64.encode b
  base64Decode : ∀ s b, C.base64Decode s = .ok b ↔ s = Base64.encode b
  pubkeyFromStr : ∀ s k, C.pubkeyFromStr s = .ok k ↔ s = Base58.encode k.1

/-! ## Display -/

/-- The string representation of an identity. -/
def ID.display (C : Codecs) : ID → Str
  | .hex s => s
  | .base58 s => s
  | .base64 s => s
  | .bytes b => C.base64Encode b

def Party.display (C : Codecs) (p : Party) : Str := p.identity.display C

/-! ## Parsing for a known chain -/

/-- Maximum allowed length of the input string before decoding, in bytes. -/
def maxIdLen : ℕ := 256

/-- The length of a string in bytes. -/
def strLen (s : Str) : ℕ := (s.map Char.utf8Size).sum

/-- The white space that `trim` removes. -/
def isWhitespace (c : Char) : Bool :=
  let n := c.toNat
  (9 ≤ n && n ≤ 13) || n = 0x20 || n = 0x85 || n = 0xa0 || n = 0x1680
    || (0x2000 ≤ n && n ≤ 0x200a) || n = 0x2028 || n = 0x2029 || n = 0x202f || n = 0x205f
    || n = 0x3000

/-- A string without the white space around it. -/
def trim (s : Str) : Str := (s.dropWhile isWhitespace).rdropWhile isWhitespace

/-- Validates that the input string does not exceed the maximum allowed length. -/
def ID.validateLength (s : Str) : Except EscrowError Unit :=
  ensure (strLen s ≤ maxIdLen) (.identity (.inputTooLong (strLen s) maxIdLen))

/-- Strips the `0x` or `0X` prefix from a hex string if present. -/
def stripHexPrefix (s : Str) : Str :=
  ((stripPrefix ['0', 'x'] s).orElse fun _ ↦ stripPrefix ['0', 'X'] s).getD s

/-- Parses `s` into an identity using the encoding for `chain`. -/
def ID.forChain (C : Codecs) (chain : Chain) (s : Str) : Except EscrowError ID := do
  let trimmed := trim s
  ID.validateLength trimmed
  let id ← (match chain with
    | .ethereum => do
      let bytes ← (C.hexDecode (stripHexPrefix trimmed)).mapError fun e ↦ .identity (.hex e)
      .ok (.hex (C.hexEncode bytes))
    | .solana => do
      let bytes ← (C.bs58Decode trimmed).mapError fun e ↦ .identity (.base58 e)
      .ok (.base58 (C.bs58Encode bytes)) : Except EscrowError ID)
  id.validate C.toCrates
  .ok id

/-! ## Prefixes -/

theorem stripPrefix_eq_none {p s : Str} (h : ¬p <+: s) : stripPrefix p s = none := if_neg h

theorem length_getD_stripPrefix_le (p s : Str) : ((stripPrefix p s).getD s).length ≤ s.length := by
  rw [stripPrefix]
  split
  · rw [Option.getD_some, List.length_drop]
    exact Nat.sub_le _ _
  · rw [Option.getD_none]

theorem length_le_stripHexPrefix (s : Str) : (stripHexPrefix s).length ≤ s.length := by
  rw [stripHexPrefix]
  cases hp : stripPrefix ['0', 'x'] s with
  | none => exact length_getD_stripPrefix_le ['0', 'X'] s
  | some t =>
    have hlen := length_getD_stripPrefix_le ['0', 'x'] s
    rw [hp] at hlen
    exact hlen

theorem stripHexPrefix_of_not_prefix {s : Str} (h : ¬['0', 'X'] <+: s) :
    stripHexPrefix s = (stripPrefix ['0', 'x'] s).getD s := by
  rw [stripHexPrefix, stripPrefix_eq_none h]
  cases stripPrefix ['0', 'x'] s with
  | none => rfl
  | some t => rfl

theorem stripPrefix_of_capital {s : Str} (h : ['0', 'X'] <+: s) :
    stripPrefix ['0', 'x'] s = none := by
  obtain ⟨t, rfl⟩ := h
  refine stripPrefix_eq_none ?_
  rintro ⟨u, hu⟩
  have hchars := (List.cons.inj (List.cons.inj hu).2).1
  exact absurd hchars (by decide)

theorem mem_of_mem_stripHexPrefix {s : Str} {c : Char} (hc : c ∈ s) :
    c ∈ ['0', 'x', 'X'] ∨ c ∈ stripHexPrefix s := by
  have hstrip (p : Str) (hp : p <+: s) (hsub : p ⊆ ['0', 'x', 'X']) :
      c ∈ ['0', 'x', 'X'] ∨ c ∈ s.drop p.length := by
    obtain ⟨t, rfl⟩ := hp
    rw [List.drop_left]
    exact (List.mem_append.mp hc).imp_left fun h ↦ hsub h
  rw [stripHexPrefix]
  by_cases hsmall : ['0', 'x'] <+: s
  · rw [stripPrefix, if_pos hsmall]
    exact hstrip _ hsmall (by decide)
  · rw [stripPrefix_eq_none hsmall]
    by_cases hcapital : ['0', 'X'] <+: s
    · rw [stripPrefix, if_pos hcapital]
      exact hstrip _ hcapital (by decide)
    · rw [stripPrefix_eq_none hcapital]
      exact .inr hc

/-! ## White space -/

theorem trim_eq_self {s : Str} (h : ∀ c ∈ s, isWhitespace c = false) : trim s = s := by
  have hdrop : s.dropWhile isWhitespace = s := by
    rw [List.dropWhile_eq_self_iff]
    intro hpos hw
    rw [h _ (List.getElem_mem _)] at hw
    exact absurd hw Bool.false_ne_true
  rw [trim, hdrop, List.rdropWhile_eq_self_iff]
  intro hne hw
  rw [h _ (List.getLast_mem hne)] at hw
  exact absurd hw Bool.false_ne_true

theorem isWhitespace_toLower {c : Char} (h : isWhitespace c = true) : c.toLower = c := by
  have hrange : c.toNat < 65 ∨ 90 < c.toNat := by
    simp only [isWhitespace, Bool.or_eq_true, Bool.and_eq_true, decide_eq_true_eq] at h
    omega
  refine dif_neg ?_
  rintro ⟨hge, hle⟩
  have hge' : 65 ≤ c.toNat := UInt32.le_iff_toNat_le.mp hge
  have hle' : c.toNat ≤ 90 := UInt32.le_iff_toNat_le.mp hle
  omega

theorem not_isWhitespace_of_mem {l : Str} (hl : l.any isWhitespace = false) {c : Char}
    (hc : c ∈ l) : isWhitespace c = false := by
  rw [List.any_eq_false] at hl
  exact Bool.eq_false_iff.mpr (hl c hc)

theorem not_isWhitespace_of_hex {s : Str} {b : Bytes}
    (h : (stripHexPrefix s).map Char.toLower = Hex.encode b) : ∀ c ∈ s, isWhitespace c = false := by
  have hdigits : Hex.alphabet.chars.any isWhitespace = false := by decide
  have hprefix : ['0', 'x', 'X'].any isWhitespace = false := by decide
  intro c hc
  rcases mem_of_mem_stripHexPrefix hc with hc | hc
  · exact not_isWhitespace_of_mem hprefix hc
  · apply Bool.eq_false_iff.mpr
    intro hw
    have hmem := List.mem_map_of_mem (f := Char.toLower) hc
    rw [h, isWhitespace_toLower hw] at hmem
    rw [not_isWhitespace_of_mem hdigits (Hex.mem_alphabet hmem)] at hw
    exact Bool.false_ne_true hw

theorem not_isWhitespace_of_base58 {b : Bytes} :
    ∀ c ∈ Base58.encode b, isWhitespace c = false := by
  have hdigits : Base58.alphabet.chars.any isWhitespace = false := by decide
  intro c hc
  exact not_isWhitespace_of_mem hdigits (Base58.mem_alphabet hc)

/-! ## Decoding -/

section

variable {C : Codecs}

theorem not_hexPrefix_of_isText {s p : Str} (hs : Hex.IsText s)
    (hp : p ∈ [['0', 'x'], ['0', 'X']]) : ¬p <+: s := by
  have hdigits : ∀ p ∈ [['0', 'x'], ['0', 'X']],
      p.any (fun c ↦ decide (c.toLower ∉ Hex.alphabet.chars)) = true := by
    decide
  obtain ⟨c, hc, hno⟩ := List.any_eq_true.mp (hdigits p hp)
  exact fun h ↦ of_decide_eq_true hno ((Hex.isText_iff.mp hs).2 c (h.subset hc))

theorem not_hex_of_capital (hC : C.Standard) {s : Str} (h : ['0', 'X'] <+: s) (b : Bytes) :
    C.hexDecode s ≠ .ok b := by
  intro hdecode
  exact not_hexPrefix_of_isText ⟨b, (hC.hexDecode s b).mp hdecode⟩ (by decide) h

theorem ID.toBytes_hex_eq_ok {s : Str} {b : Bytes} (hC : C.Standard) :
    (ID.hex s).toBytes C.toCrates = .ok b ↔
      ((stripPrefix ['0', 'x'] s).getD s).map Char.toLower = Hex.encode b := by
  rw [ID.toBytes, mapError_eq_ok, hC.hexDecode]

theorem ID.toBytes_base58_eq_ok {s : Str} {b : Bytes} (hC : C.Standard) :
    (ID.base58 s).toBytes C.toCrates = .ok b ↔ s = Base58.encode b := by
  rw [ID.toBytes, mapError_eq_ok, hC.bs58Decode]

theorem ID.toBytes_base64_eq_ok {s : Str} {b : Bytes} (hC : C.Standard) :
    (ID.base64 s).toBytes C.toCrates = .ok b ↔ s = Base64.encode b := by
  rw [ID.toBytes, mapError_eq_ok, hC.base64Decode]

/-- The text `s` stands for the bytes `b` in the encoding of a chain. -/
def Chain.Spells : Chain → Str → Bytes → Prop
  | .ethereum, s, b => (stripHexPrefix s).map Char.toLower = Hex.encode b
  | .solana, s, b => s = Base58.encode b

/-- The canonical identity of some bytes on a chain. -/
def Chain.identity : Chain → Bytes → ID
  | .ethereum, b => .hex (Hex.encode b)
  | .solana, b => .base58 (Base58.encode b)

theorem stripPrefix_encode {p : Str} (hp : p ∈ [['0', 'x'], ['0', 'X']]) (b : Bytes) :
    stripPrefix p (Hex.encode b) = none :=
  stripPrefix_eq_none (not_hexPrefix_of_isText (Hex.isText_encode b) hp)

theorem Chain.toBytes_identity (hC : C.Standard) (chain : Chain) (b : Bytes) :
    (chain.identity b).toBytes C.toCrates = .ok b := by
  cases chain with
  | ethereum =>
    rw [identity, ID.toBytes_hex_eq_ok hC, stripPrefix_encode (by decide), Option.getD_none,
      Hex.map_toLower_encode]
  | solana => rw [identity, ID.toBytes_base58_eq_ok hC]

theorem Chain.Spells.inj {chain : Chain} {s : Str} {b b' : Bytes} (h : chain.Spells s b)
    (h' : chain.Spells s b') : b = b' := by
  cases chain with
  | ethereum => exact Hex.encode_injective (h.symm.trans h')
  | solana => exact Base58.encode_injective (h.symm.trans h')

theorem Chain.Spells.not_isWhitespace {chain : Chain} {s : Str} {b : Bytes}
    (h : chain.Spells s b) : ∀ c ∈ s, isWhitespace c = false := by
  cases chain with
  | ethereum => exact not_isWhitespace_of_hex h
  | solana =>
    obtain rfl := h
    exact not_isWhitespace_of_base58

/-- What is accepted for a chain: a text of some bytes, stored as their canonical identity. -/
theorem ID.forChain_eq_ok (hC : C.Standard) {chain : Chain} {s : Str} {id : ID} :
    ID.forChain C chain s = .ok id ↔ strLen (trim s) ≤ maxIdLen ∧
      ∃ b, b ≠ [] ∧ chain.Spells (trim s) b ∧ id = chain.identity b := by
  have hvalid (b : Bytes) :
      (chain.identity b).validate C.toCrates = .ok () ↔ b ≠ [] := by
    rw [ID.validate_eq_ok, chain.toBytes_identity hC]
    exact ⟨fun ⟨_, hb, hne⟩ ↦ Except.ok.inj hb ▸ hne, fun hne ↦ ⟨b, rfl, hne⟩⟩
  have hdecoded : ID.forChain C chain s = .ok id ↔ strLen (trim s) ≤ maxIdLen ∧
      ∃ b, chain.Spells (trim s) b ∧
        (chain.identity b).validate C.toCrates = .ok () ∧ chain.identity b = id := by
    cases chain <;>
      simp [ID.forChain, ID.validateLength, Chain.Spells, Chain.identity, bind_eq_ok, ensure_eq_ok,
        mapError_eq_ok, hC.hexDecode, hC.hexEncode, hC.bs58Decode, hC.bs58Encode, Unique.exists_iff]
  rw [hdecoded]
  refine and_congr_right fun _ ↦ exists_congr fun b ↦ ?_
  rw [hvalid, and_left_comm, eq_comm (a := id)]

theorem ID.toBytes_of_forChain (hC : C.Standard) {chain : Chain} {s : Str} {id : ID} {b : Bytes}
    (hid : ID.forChain C chain s = .ok id) (hs : chain.Spells s b) :
    id.toBytes C.toCrates = .ok b := by
  obtain ⟨-, b', -, hs', rfl⟩ := (ID.forChain_eq_ok hC).mp hid
  rw [trim_eq_self hs.not_isWhitespace] at hs'
  rw [chain.toBytes_identity hC, hs.inj hs']

end

/-- Crates that follow the standard alphabets, for samples. -/
def Codecs.sample : Codecs :=
  { Crates.sample with
    hexDecode := fun s ↦ (Hex.decode s).elim (.error "invalid hex") .ok
    bs58Decode := fun s ↦ (Base58.decode s).elim (.error "invalid base58") .ok
    base64Decode := fun s ↦ (Base64.decode s).elim (.error "invalid base64") .ok
    hexEncode := Hex.encode
    bs58Encode := Base58.encode
    base64Encode := Base64.encode
    pubkeyFromStr := fun s ↦
      ((Base58.decode s).bind (Reader.tryInto 32)).elim (.error "invalid address") .ok }

theorem Codecs.standard_sample : Codecs.sample.Standard := by
  refine ⟨fun _ ↦ rfl, fun s b ↦ elim_eq_ok.trans Hex.decode_eq_some, fun _ ↦ rfl,
    fun s b ↦ elim_eq_ok.trans Base58.decode_eq_some, fun _ ↦ rfl,
    fun s b ↦ elim_eq_ok.trans Base64.decode_eq_some, fun s k ↦ elim_eq_ok.trans ?_⟩
  rw [Option.bind_eq_some_iff]
  simp only [Base58.decode_eq_some, tryInto_eq_some]
  constructor
  · rintro ⟨b, rfl, rfl⟩
    rfl
  · rintro rfl
    exact ⟨k.1, rfl, rfl⟩

end Zescrow
