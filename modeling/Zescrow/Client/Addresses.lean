import Zescrow.Client.Agents

/-!
# The address of a party, read twice

A party's address is read once to fund the escrow, from the text the party is displayed as, and once
to bind the proof, from the variant its identity is stored under. The first reading ignores the
variant. No byte string of an address's length has the text of an address in a second encoding, so
the readings can only agree where the variant is the chain's own; on Ethereum there is one more
exception, since the prefix `0X` is stripped by the first reading and not by the second.
-/

open Foundation

namespace Zescrow

open Ethereum (addressBytes)

/-- The text of an Ethereum address: the digits of 20 bytes in either case, behind an optional
prefix. -/
def AddressText (s : Str) : Prop :=
  ∃ b : FixedBytes 20, (stripHexPrefix s).map Char.toLower = Hex.encode b.1

/-- The text of a Solana address: 32 bytes in Base58. -/
def PubkeyText (s : Str) : Prop := ∃ k : FixedBytes 32, s = Base58.encode k.1

/-- A hex identity that does not start with the capital prefix. -/
def ID.PlainHex (id : ID) : Prop := ∃ s, id = .hex s ∧ ¬['0', 'X'] <+: s

def ID.IsBase58 (id : ID) : Prop := ∃ s, id = .base58 s

section

variable {C : Codecs}

/-! ## Ethereum -/

theorem AddressText.length_le {s : Str} (h : AddressText s) : 40 ≤ s.length := by
  obtain ⟨b, hb⟩ := h
  have hlen := congrArg List.length hb
  rw [List.length_map, Hex.length_encode, b.2] at hlen
  exact hlen.symm.le.trans (length_le_stripHexPrefix s)

theorem ID.plainHex_of_toBytes (hC : C.Standard) {id : ID} {b : FixedBytes 20}
    (htext : AddressText (id.display C)) (hbytes : id.toBytes C.toCrates = .ok b.1) :
    id.PlainHex := by
  have hlong := htext.length_le
  cases id with
  | hex s =>
    refine ⟨s, rfl, fun hcapital ↦ ?_⟩
    rw [ID.toBytes, stripPrefix_of_capital hcapital, mapError_eq_ok] at hbytes
    exact not_hex_of_capital hC hcapital b.1 hbytes
  | base58 s =>
    have hs := (ID.toBytes_base58_eq_ok hC).mp hbytes
    have hshort := Base58.length_encode_le (b := b.1) (k := 10) b.2
    rw [← hs] at hshort
    rw [ID.display] at hlong
    omega
  | base64 s =>
    have hs := (ID.toBytes_base64_eq_ok hC).mp hbytes
    have hshort := Base64.length_encode b.1
    rw [← hs, b.2] at hshort
    rw [ID.display] at hlong
    omega
  | bytes c =>
    obtain rfl := Except.ok.inj hbytes
    have hshort := Base64.length_encode b.1
    rw [b.2] at hshort
    rw [ID.display, hC.base64Encode] at hlong
    omega

theorem ID.PlainHex.toBytes_eq_ok (hC : C.Standard) {id : ID} (hid : id.PlainHex) {b : Bytes} :
    id.toBytes C.toCrates = .ok b ↔
      (stripHexPrefix (id.display C)).map Char.toLower = Hex.encode b := by
  obtain ⟨s, rfl, hs⟩ := hid
  rw [ID.toBytes_hex_eq_ok hC, ID.display, stripHexPrefix_of_not_prefix hs]

/-- The address the client funds is the one the proof binds, exactly for plain hex identities. -/
theorem Party.ethereum_address_agrees (hC : C.Standard) (p : Party) :
    (∀ a, EthereumAgent.parseAddress C (p.display C) = .ok a →
        p.toBytes C.toCrates = .ok (addressBytes a)) ↔
      p.identity.PlainHex ∨ ¬AddressText (p.display C) := by
  simp only [EthereumAgent.parseAddress_eq_ok hC]
  constructor
  · intro hagree
    refine or_iff_not_imp_right.mpr fun htext ↦ ?_
    rw [not_not] at htext
    obtain ⟨b, hb⟩ := htext
    have haddress := ofNat_ofBE_eq_iff.mp (rfl : BitVec.ofNat 160 (ofBE b.1) = _)
    have hbytes := hagree (BitVec.ofNat 160 (ofBE b.1)) (haddress ▸ hb)
    rw [← haddress] at hbytes
    exact ID.plainHex_of_toBytes hC ⟨b, hb⟩ hbytes
  · rintro (hid | htext) a ha
    · exact (hid.toBytes_eq_ok hC).mpr ha
    · exact absurd ⟨⟨addressBytes a, length_toBE _ _⟩, ha⟩ htext

/-! ## Solana -/

theorem ID.isBase58_of_toBytes (hC : C.Standard) {id : ID} {b : FixedBytes 32}
    (htext : PubkeyText (id.display C)) (hbytes : id.toBytes C.toCrates = .ok b.1) :
    id.IsBase58 := by
  obtain ⟨k, hk⟩ := htext
  -- The padding of 32 bytes in Base64 is no digit of Base58.
  have hpad : Base64.encode b.1 ≠ Base58.encode k.1 := by
    intro heq
    have hmem : '=' ∈ Base64.encode b.1 := Base64.pad_mem_encode (by rw [b.2]; norm_num)
    rw [heq] at hmem
    exact absurd (Base58.mem_alphabet hmem) (by decide)
  cases id with
  | hex s =>
    have hs := congrArg List.length ((ID.toBytes_hex_eq_ok hC).mp hbytes)
    rw [List.length_map, Hex.length_encode, b.2] at hs
    have hlong := length_getD_stripPrefix_le ['0', 'x'] s
    have hshort := Base58.length_encode_le (b := k.1) (k := 16) k.2
    rw [← hk, ID.display] at hshort
    omega
  | base58 s => exact ⟨s, rfl⟩
  | base64 s =>
    have hs := (ID.toBytes_base64_eq_ok hC).mp hbytes
    rw [ID.display, hs] at hk
    exact absurd hk hpad
  | bytes c =>
    obtain rfl := Except.ok.inj hbytes
    rw [ID.display, hC.base64Encode] at hk
    exact absurd hk hpad

theorem ID.IsBase58.toBytes_eq_ok (hC : C.Standard) {id : ID} (hid : id.IsBase58) {b : Bytes} :
    id.toBytes C.toCrates = .ok b ↔ id.display C = Base58.encode b := by
  obtain ⟨s, rfl⟩ := hid
  exact ID.toBytes_base58_eq_ok hC

/-- The key the client funds is the one the proof binds, exactly for Base58 identities. -/
theorem Party.solana_address_agrees (hC : C.Standard) (p : Party) :
    (∀ k, SolanaAgent.parsePubkey C (p.display C) = .ok k →
        p.toBytes C.toCrates = .ok k.1) ↔
      p.identity.IsBase58 ∨ ¬PubkeyText (p.display C) := by
  simp only [SolanaAgent.parsePubkey_eq_ok hC]
  constructor
  · intro hagree
    refine or_iff_not_imp_right.mpr fun htext ↦ ?_
    rw [not_not] at htext
    obtain ⟨k, hk⟩ := htext
    exact ID.isBase58_of_toBytes hC ⟨k, hk⟩ (hagree k hk)
  · rintro (hid | htext) k hk
    · exact (hid.toBytes_eq_ok hC).mpr hk
    · exact absurd ⟨k, hk⟩ htext

/-! ## Both chains -/

/-- **When the client's address is the proof's.** Where the client parses an address at all, it is
the bytes the proof binds exactly if the identity is stored under the chain's own encoding, for
Ethereum without the capital prefix. -/
theorem Party.address_bytes_agree_iff (hC : C.Standard) (p : Party) :
    ((∀ a, EthereumAgent.parseAddress C (p.display C) = .ok a →
          p.toBytes C.toCrates = .ok (addressBytes a)) ↔
        p.identity.PlainHex ∨ ¬AddressText (p.display C)) ∧
      ((∀ k, SolanaAgent.parsePubkey C (p.display C) = .ok k →
          p.toBytes C.toCrates = .ok k.1) ↔
        p.identity.IsBase58 ∨ ¬PubkeyText (p.display C)) :=
  ⟨p.ethereum_address_agrees hC, p.solana_address_agrees hC⟩

end

/-- Twenty bytes in plain hex. -/
def plainParty : Party := ⟨.hex (List.replicate 40 'a')⟩

/-- Thirty-two zero bytes in Base58. -/
def onesParty : Party := ⟨.base58 (List.replicate 32 '1')⟩

theorem SolanaAgent.parsePubkey_ones :
    parsePubkey .sample (onesParty.display .sample) = .ok (.zero 32) := by
  rw [parsePubkey_eq_ok Codecs.standard_sample]
  exact (Base58.encode_replicate_zero 32).symm

theorem Party.address_bytes_agree_iff_samples :
    plainParty.toBytes Codecs.sample.toCrates = .ok (List.replicate 20 0xaa) ∧
      onesParty.toBytes Codecs.sample.toCrates = .ok (FixedBytes.zero 32).1 := by
  have hplain := plainParty.address_bytes_agree_iff Codecs.standard_sample
  have hones := onesParty.address_bytes_agree_iff Codecs.standard_sample
  constructor
  · exact hplain.1.mpr (.inl ⟨_, rfl, by decide⟩) (BitVec.ofNat 160 (ofBE (List.replicate 20 0xaa)))
      (by decide)
  · exact hones.2.mpr (.inl ⟨_, rfl⟩) (.zero 32) SolanaAgent.parsePubkey_ones

/-- The twenty bytes behind the capital prefix. -/
def capitalParty : Party := ⟨.hex ('0' :: 'X' :: List.replicate 40 'a')⟩

/-- Sixteen bytes in hex, whose text is that of 32 zero bytes in Base58. -/
def ambiguousParty : Party := ⟨.hex (List.replicate 32 '1')⟩

/-- The client funds an address that the proof cannot bind, or binds other bytes than it funds. -/
theorem Party.address_bytes_disagree :
    (∃ a, EthereumAgent.parseAddress .sample (capitalParty.display .sample) = .ok a ∧
        capitalParty.toBytes Codecs.sample.toCrates ≠ .ok (addressBytes a)) ∧
      ∃ k, SolanaAgent.parsePubkey .sample (ambiguousParty.display .sample) = .ok k ∧
        ambiguousParty.toBytes Codecs.sample.toCrates ≠ .ok k.1 := by
  constructor
  · exact ⟨BitVec.ofNat 160 (ofBE (List.replicate 20 0xaa)), by decide, by decide⟩
  · exact ⟨.zero 32, SolanaAgent.parsePubkey_ones, by decide⟩

end Zescrow
