import Mathlib.Algebra.Order.BigOperators.Group.List
import Zescrow.Core.IdentityText

/-!
# Detecting the encoding of an identity

Where the chain is known its encoding is the only one tried, and what is accepted is stored in one
canonical form. Where it is not known, the decoders are tried in turn on the text without its hex
prefix. The two parsers differ on prefixed texts that are not hex: the later decoders see the digits
without the prefix that marked them, and the hex decoder removes a second one.
-/

open Foundation

namespace Zescrow

/-! ## Best-effort detection -/

/-- Ensures the input string is not empty. -/
def ID.ensureNonEmpty (s : Str) : Except EscrowError Unit :=
  ensure (s ≠ []) (.identity .emptyIdentity)

section

variable (C : Codecs)

/-- Attempts to decode a hex string. Handles optional `0x` prefix. -/
def ID.tryDecodeHex (s : Str) : Option ID :=
  let stripped := (stripPrefix ['0', 'x'] s).getD s
  (C.hexDecode stripped).toOption.map fun bytes ↦ .hex (C.hexEncode bytes)

def ID.tryDecodeBase58 (s : Str) : Option ID :=
  (C.bs58Decode s).toOption.map fun bytes ↦ .base58 (C.bs58Encode bytes)

def ID.tryDecodeBase64 (s : Str) : Option ID :=
  (C.base64Decode s).toOption.map fun bytes ↦ .base64 (C.base64Encode bytes)

/-- Trial decode in the order hex, Base58, Base64: the first match wins. -/
def ID.fromStr (s : Str) : Except EscrowError ID := do
  ID.validateLength s
  let raw := stripHexPrefix (trim s)
  ID.ensureNonEmpty raw
  let id := ((ID.tryDecodeHex C raw).orElse fun _ ↦ ID.tryDecodeBase58 C raw).orElse fun _ ↦
    ID.tryDecodeBase64 C raw
  id.elim (.error (.identity .unsupportedFormat)) .ok

/-- The decoder of a chain's encoding. -/
def Codecs.chainDecode : Chain → Str → Except String Bytes
  | .ethereum => C.hexDecode
  | .solana => C.bs58Decode

end

/-! ## Lengths -/

theorem length_le_strLen (s : Str) : s.length ≤ strLen s := by
  induction s with
  | nil => exact le_rfl
  | cons c s ih =>
    have hc := c.utf8Size_pos
    rw [strLen] at ih ⊢
    rw [List.map_cons, List.sum_cons, List.length_cons]
    omega

theorem strLen_eq_length {s : Str} (h : ∀ c ∈ s, c.utf8Size = 1) : strLen s = s.length := by
  rw [strLen, List.map_eq_replicate_iff.mpr h, List.sum_replicate_nat, mul_one]

theorem strLen_trim_le (s : Str) : strLen (trim s) ≤ strLen s := by
  have hsub : (trim s).Sublist s :=
    (List.rdropWhile_prefix _ _).sublist.trans (List.dropWhile_sublist _)
  exact (hsub.map Char.utf8Size).sum_le_sum fun _ _ ↦ Nat.zero_le _

theorem strLen_hex_encode (b : Bytes) : strLen (Hex.encode b) = (Hex.encode b).length := by
  have hdigits : ∀ c ∈ Hex.alphabet.chars, c.utf8Size = 1 :=
    List.forall_iff_forall_mem.mp (by decide)
  exact strLen_eq_length fun c hc ↦ hdigits c (Hex.mem_alphabet hc)

/-! ## The trial decoders -/

section

variable {C : Codecs}

theorem toOption_map_isSome {ε α β : Type} {x : Except ε α} {f : α → β} :
    (x.toOption.map f).isSome ↔ ∃ a, x = .ok a := by
  cases x <;> simp [Except.toOption]

/-- A hex text has no prefix, so the decoder of a prefixed one also takes it as it stands. -/
theorem ID.tryDecodeHex_isSome (hC : C.Standard) {s : Str} :
    (ID.tryDecodeHex C s).isSome ↔ Hex.IsText s ∨ ∃ t, s = ['0', 'x'] ++ t ∧ Hex.IsText t := by
  have hdecode : (ID.tryDecodeHex C s).isSome ↔
      Hex.IsText ((stripPrefix ['0', 'x'] s).getD s) := by
    rw [tryDecodeHex, toOption_map_isSome]
    exact exists_congr fun b ↦ hC.hexDecode _ b
  rw [hdecode]
  by_cases hp : ['0', 'x'] <+: s
  · obtain ⟨t, rfl⟩ := hp
    have hno : ¬Hex.IsText (['0', 'x'] ++ t) := fun h ↦
      not_hexPrefix_of_isText h (by decide) (List.prefix_append _ _)
    rw [stripPrefix, if_pos (List.prefix_append _ _), List.drop_left, Option.getD_some]
    constructor
    · exact fun ht ↦ .inr ⟨t, rfl, ht⟩
    · rintro (h | ⟨t', ht', h⟩)
      · exact absurd h hno
      · exact List.append_cancel_left ht' ▸ h
  · rw [stripPrefix_eq_none hp, Option.getD_none]
    refine (or_iff_left ?_).symm
    rintro ⟨t, rfl, -⟩
    exact hp (List.prefix_append _ _)

theorem ID.tryDecodeBase58_isSome (hC : C.Standard) {s : Str} :
    (ID.tryDecodeBase58 C s).isSome ↔ ∀ c ∈ s, c ∈ Base58.alphabet.chars := by
  rw [tryDecodeBase58, toOption_map_isSome, ← Base58.isText_iff]
  exact exists_congr fun b ↦ hC.bs58Decode _ b

theorem ID.tryDecodeBase64_isSome (hC : C.Standard) {s : Str} :
    (ID.tryDecodeBase64 C s).isSome ↔ Base64.IsText s := by
  rw [tryDecodeBase64, toOption_map_isSome]
  exact exists_congr fun b ↦ hC.base64Decode _ b

theorem ID.fromStr_eq {s : Str} (hs : strLen s ≤ maxIdLen) :
    ID.fromStr C s =
      if stripHexPrefix (trim s) = [] then .error (.identity .emptyIdentity)
      else (((ID.tryDecodeHex C (stripHexPrefix (trim s))).orElse fun _ ↦
          ID.tryDecodeBase58 C (stripHexPrefix (trim s))).orElse fun _ ↦
        ID.tryDecodeBase64 C (stripHexPrefix (trim s))).elim
          (.error (.identity .unsupportedFormat)) .ok := by
  have hlength : ID.validateLength s = .ok () := ensure_eq_ok.mpr hs
  simp only [ID.fromStr, hlength, ok_bind, ID.ensureNonEmpty, ensure]
  by_cases hraw : stripHexPrefix (trim s) = []
  · rw [if_pos hraw, if_neg (not_not.mpr hraw), error_bind]
  · rw [if_neg hraw, if_pos hraw, ok_bind]

/-- Without a length error, detection fails exactly where there is nothing to decode or no decoder
takes it. -/
theorem ID.fromStr_eq_error (hC : C.Standard) {s : Str} (hs : strLen s ≤ maxIdLen) :
    (∃ e, ID.fromStr C s = .error e) ↔ stripHexPrefix (trim s) = [] ∨
      ¬(Hex.IsText (stripHexPrefix (trim s)) ∨
        (∃ t, stripHexPrefix (trim s) = ['0', 'x'] ++ t ∧ Hex.IsText t) ∨
        (∀ c ∈ stripHexPrefix (trim s), c ∈ Base58.alphabet.chars) ∨
        Base64.IsText (stripHexPrefix (trim s))) := by
  have horElse {o : Option ID} {f : Unit → Option ID} :
      (o.orElse f).isSome ↔ o.isSome ∨ (f ()).isSome := by
    cases o <;> simp
  have helim {o : Option ID} {e : EscrowError} :
      (∃ e', o.elim (.error e) (Except.ok (ε := EscrowError)) = .error e') ↔ ¬o.isSome := by
    cases o <;> simp
  rw [← or_assoc, ← ID.tryDecodeHex_isSome hC, ← ID.tryDecodeBase58_isSome hC,
    ← ID.tryDecodeBase64_isSome hC]
  rw [ID.fromStr_eq hs]
  by_cases hraw : stripHexPrefix (trim s) = []
  · rw [if_pos hraw]
    exact iff_of_true ⟨_, rfl⟩ (.inl hraw)
  · rw [if_neg hraw, helim, horElse, horElse, or_assoc, or_iff_right hraw]

theorem ID.fromStr_of_hex (hC : C.Standard) {s : Str} {b : Bytes} (hs : strLen s ≤ maxIdLen)
    (hb : (stripHexPrefix (trim s)).map Char.toLower = Hex.encode b) (hne : b ≠ []) :
    ID.fromStr C s = .ok (.hex (Hex.encode b)) := by
  have hraw : stripHexPrefix (trim s) ≠ [] := by
    intro hnil
    rw [hnil] at hb
    exact hne (Hex.encode_injective hb.symm)
  have hno : ¬['0', 'x'] <+: stripHexPrefix (trim s) :=
    not_hexPrefix_of_isText ⟨b, hb⟩ (by decide)
  have htry : ID.tryDecodeHex C (stripHexPrefix (trim s)) = some (.hex (C.hexEncode b)) := by
    rw [ID.tryDecodeHex, stripPrefix_eq_none hno, Option.getD_none, (hC.hexDecode _ b).mpr hb]
    rfl
  rw [ID.fromStr_eq hs, if_neg hraw, htry, hC.hexEncode]
  rfl

/-! ## A prefixed text -/

/-- The digits of a hex string that is not empty. -/
def IsHexString (d : Str) : Prop :=
  d ≠ [] ∧ 2 ∣ d.length ∧ ∀ c ∈ d, c.toLower ∈ Hex.alphabet.chars

theorem isHexString_iff {d : Str} :
    IsHexString d ↔ ∃ b, b ≠ [] ∧ d.map Char.toLower = Hex.encode b := by
  rw [IsHexString, ← Hex.isText_iff]
  constructor
  · rintro ⟨hd, b, hb⟩
    refine ⟨b, ?_, hb⟩
    rintro rfl
    exact hd (List.map_eq_nil_iff.mp hb)
  · rintro ⟨b, hne, hb⟩
    refine ⟨?_, b, hb⟩
    rintro rfl
    exact hne (Hex.encode_injective hb.symm)

/-- Both parsers read `s` as the same hex identity, or both reject it because its digits `d` are not
a hex string. -/
def ID.AgreeOnHex (C : Codecs) (s d : Str) : Prop :=
  (∃ t, ID.fromStr C s = .ok (.hex t) ∧ ID.forChain C .ethereum s = .ok (.hex t)) ∨
    ¬IsHexString d ∧ (∃ e, ID.fromStr C s = .error e) ∧
      ∃ e, ID.forChain C .ethereum s = .error e

theorem stripHexPrefix_append {p : Str} (hp : p ∈ [['0', 'x'], ['0', 'X']]) (d : Str) :
    stripHexPrefix (p ++ d) = d := by
  rcases List.mem_pair.mp hp with rfl | rfl
  · rw [stripHexPrefix, stripPrefix, if_pos (List.prefix_append _ _)]
    rfl
  · rw [stripHexPrefix, stripPrefix_of_capital (List.prefix_append _ _), stripPrefix,
      if_pos (List.prefix_append _ _)]
    rfl

theorem ID.forChain_ethereum_eq_ok (hC : C.Standard) {s : Str} (hs : strLen s ≤ maxIdLen)
    {id : ID} : ID.forChain C .ethereum s = .ok id ↔
      ∃ b, b ≠ [] ∧ (stripHexPrefix (trim s)).map Char.toLower = Hex.encode b ∧
        id = .hex (Hex.encode b) := by
  rw [ID.forChain_eq_ok hC, and_iff_right ((strLen_trim_le s).trans hs)]
  rfl

theorem ID.forChain_ethereum_eq_error (hC : C.Standard) {s : Str} (hs : strLen s ≤ maxIdLen)
    (h : ¬IsHexString (stripHexPrefix (trim s))) : ∃ e, ID.forChain C .ethereum s = .error e := by
  cases hid : ID.forChain C .ethereum s with
  | error e => exact ⟨e, rfl⟩
  | ok id =>
    obtain ⟨b, hne, hb, -⟩ := (ID.forChain_ethereum_eq_ok hC hs).mp hid
    exact absurd (isHexString_iff.mpr ⟨b, hne, hb⟩) h

/-- **When detection takes a prefixed text as hex or not at all.** The digits that are not hex must
be out of reach of the other decoders, and carry no second prefix. -/
theorem ID.agreeOnHex_iff (hC : C.Standard) {s p d : Str} (hs : strLen s ≤ maxIdLen)
    (hp : p ∈ [['0', 'x'], ['0', 'X']]) (htrim : trim s = p ++ d) :
    ID.AgreeOnHex C s d ↔ Hex.IsText d ∨
      ¬((∃ t, d = ['0', 'x'] ++ t ∧ Hex.IsText t) ∨ (∀ c ∈ d, c ∈ Base58.alphabet.chars) ∨
        Base64.IsText d) := by
  have hdigits : stripHexPrefix (trim s) = d := by rw [htrim, stripHexPrefix_append hp]
  have herror := ID.fromStr_eq_error hC hs
  have hreject := ID.forChain_ethereum_eq_error hC hs
  rw [hdigits] at herror hreject
  by_cases hd : Hex.IsText d
  · refine iff_of_true ?_ (.inl hd)
    obtain ⟨b, hb⟩ := hd
    by_cases hne : b = []
    · have hnil : d = [] := by
        rw [hne] at hb
        exact List.map_eq_nil_iff.mp hb
      have hno : ¬IsHexString d := fun h ↦ h.1 hnil
      exact .inr ⟨hno, herror.mpr (.inl hnil), hreject hno⟩
    · rw [← hdigits] at hb
      exact .inl ⟨_, ID.fromStr_of_hex hC hs hb hne,
        (ID.forChain_ethereum_eq_ok hC hs).mpr ⟨b, hne, hb, rfl⟩⟩
  · have hno : ¬IsHexString d := fun h ↦ hd (Hex.isText_iff.mpr h.2)
    have hnil : d ≠ [] := by
      rintro rfl
      exact hd ⟨[], rfl⟩
    rw [or_iff_right hnil, or_iff_right hd] at herror
    rw [or_iff_right hd, ← herror]
    constructor
    · rintro (⟨t, -, hchain⟩ | ⟨-, h, -⟩)
      · obtain ⟨e, he⟩ := hreject hno
        exact absurd (he.symm.trans hchain) error_ne_ok
      · exact h
    · exact fun h ↦ .inr ⟨hno, h, hreject hno⟩

end

theorem ID.agreeOnHex_iff_sample :
    ID.AgreeOnHex Codecs.sample "0Xabc!".toList "abc!".toList ↔ Hex.IsText "abc!".toList ∨
      ¬((∃ t, "abc!".toList = ['0', 'x'] ++ t ∧ Hex.IsText t) ∨
        (∀ c ∈ "abc!".toList, c ∈ Base58.alphabet.chars) ∨ Base64.IsText "abc!".toList) :=
  ID.agreeOnHex_iff Codecs.standard_sample (s := "0Xabc!".toList) (p := ['0', 'X']) (by decide)
    (by decide) (by decide)

/-- An odd number of digits is taken as Base58. -/
theorem ID.not_agreeOnHex_odd :
    ID.fromStr Codecs.sample "0xabc".toList = .ok (.base58 ['a', 'b', 'c']) ∧
      ¬ID.AgreeOnHex Codecs.sample "0xabc".toList "abc".toList := by
  have hfrom : ID.fromStr Codecs.sample "0xabc".toList = .ok (.base58 ['a', 'b', 'c']) := by
    decide
  refine ⟨hfrom, ?_⟩
  rintro (⟨t, h, -⟩ | ⟨-, ⟨e, h⟩, -⟩)
  · exact absurd (hfrom.symm.trans h) (by simp)
  · exact absurd (hfrom.symm.trans h) ok_ne_error

/-! ## Canonical identities -/

section

variable {C : Codecs}

/-- A text in a chain's encoding is what its decoder reads once the hex prefix is gone. -/
theorem Codecs.chainDecode_eq_ok (hC : C.Standard) {chain : Chain} {s : Str} {b : Bytes}
    (h : chain.Spells s b) : C.chainDecode chain (stripHexPrefix s) = .ok b := by
  cases chain with
  | ethereum => exact (hC.hexDecode _ b).mpr h
  | solana =>
    obtain rfl : s = Base58.encode b := h
    have hno (c : Char) : ¬['0', c] <+: Base58.encode b := by
      intro h
      exact absurd (Base58.mem_alphabet (h.subset List.mem_cons_self)) (by decide)
    rw [chainDecode, stripHexPrefix, stripPrefix_eq_none (hno 'x'), stripPrefix_eq_none (hno 'X')]
    exact (hC.bs58Decode _ b).mpr rfl

theorem Chain.strLen_display_le {chain : Chain} {s : Str} {b : Bytes} (h : chain.Spells s b) :
    strLen ((chain.identity b).display C) ≤ strLen s := by
  cases chain with
  | ethereum =>
    calc strLen (Hex.encode b) = (stripHexPrefix s).length := by
          rw [strLen_hex_encode, ← h, List.length_map]
      _ ≤ s.length := length_le_stripHexPrefix s
      _ ≤ strLen s := length_le_strLen s
  | solana => exact (congrArg strLen h).ge

theorem Chain.spells_display (chain : Chain) (b : Bytes) :
    chain.Spells ((chain.identity b).display C) b := by
  cases chain with
  | ethereum =>
    have hstrip : stripHexPrefix (Hex.encode b) = Hex.encode b := by
      rw [stripHexPrefix, stripPrefix_encode (by decide), stripPrefix_encode (by decide)]
      rfl
    exact (congrArg (List.map Char.toLower) hstrip).trans (Hex.map_toLower_encode b)
  | solana => rfl

/-- **Canonical identities.** On one chain an identity is its bytes, these are what the text decodes
to, and the displayed identity is parsed back to itself. -/
theorem ID.forChain_canonical (hC : C.Standard) {chain : Chain} {s₁ s₂ : Str} {id₁ id₂ : ID}
    (h₁ : ID.forChain C chain s₁ = .ok id₁) (h₂ : ID.forChain C chain s₂ = .ok id₂) :
    (id₁ = id₂ ↔ id₁.toBytes C.toCrates = id₂.toBytes C.toCrates) ∧
      (∃ b, b ≠ [] ∧ id₁.toBytes C.toCrates = .ok b ∧
        C.chainDecode chain (stripHexPrefix (trim s₁)) = .ok b) ∧
      ID.forChain C chain (id₁.display C) = .ok id₁ := by
  obtain ⟨hlen, b₁, hne, hs₁, rfl⟩ := (ID.forChain_eq_ok hC).mp h₁
  obtain ⟨-, b₂, -, -, rfl⟩ := (ID.forChain_eq_ok hC).mp h₂
  refine ⟨⟨congrArg (ID.toBytes C.toCrates), fun hbytes ↦ ?_⟩, ?_, ?_⟩
  · rw [chain.toBytes_identity hC, chain.toBytes_identity hC] at hbytes
    rw [Except.ok.inj hbytes]
  · exact ⟨b₁, hne, chain.toBytes_identity hC b₁, Codecs.chainDecode_eq_ok hC hs₁⟩
  · have hspells := chain.spells_display (C := C) b₁
    rw [ID.forChain_eq_ok hC, trim_eq_self hspells.not_isWhitespace]
    exact ⟨(Chain.strLen_display_le hs₁).trans hlen, b₁, hne, hspells, rfl⟩

end

/-- Two spellings of one address: they are one identity, displayed as its lower-case digits. -/
theorem ID.forChain_canonical_sample :
    ID.forChain Codecs.sample .ethereum " 0XDEad\n".toList = .ok (.hex "dead".toList) ∧
      ID.forChain Codecs.sample .ethereum "dEAD".toList = .ok (.hex "dead".toList) ∧
      ((ID.hex "dead".toList = .hex "dead".toList ↔
          (ID.hex "dead".toList).toBytes Codecs.sample.toCrates
            = (ID.hex "dead".toList).toBytes Codecs.sample.toCrates) ∧
        (∃ b, b ≠ [] ∧ (ID.hex "dead".toList).toBytes Codecs.sample.toCrates = .ok b ∧
          Codecs.sample.chainDecode .ethereum (stripHexPrefix (trim " 0XDEad\n".toList)) = .ok b) ∧
        ID.forChain Codecs.sample .ethereum ((ID.hex "dead".toList).display Codecs.sample)
          = .ok (.hex "dead".toList)) := by
  have h₁ : ID.forChain Codecs.sample .ethereum " 0XDEad\n".toList = .ok (.hex "dead".toList) := by
    decide
  have h₂ : ID.forChain Codecs.sample .ethereum "dEAD".toList = .ok (.hex "dead".toList) := by
    decide
  exact ⟨h₁, h₂, ID.forChain_canonical Codecs.standard_sample h₁ h₂⟩

end Zescrow
