import Mathlib.Data.List.GetD
import Zescrow.Foundation.Bytes
import Zescrow.Foundation.Radix

/-!
# Hex, Base58, Base64 and UTF-8

The three text encodings of byte strings, each written as its encoder and a reader that undoes it.
A decoder that accepts canonical texts only is then the reader followed by a comparison: it accepts
exactly what the encoder writes. Hex is read in either case and written in lower case; Base64 is the
padded one. The byte encoding of texts is UTF-8.
-/

namespace Foundation

/-! ## Alphabets -/

/-- The characters of an encoding, in the order of the digits they stand for. -/
structure Alphabet where
  chars : List Char
  nodup : chars.Nodup

namespace Alphabet

variable (A : Alphabet)

/-- The character of a digit. -/
def char (n : ℕ) : Char := A.chars.getD n '?'

/-- The digit of a character. -/
def digit (c : Char) : ℕ := A.chars.idxOf c

theorem char_mem {n : ℕ} (h : n < A.chars.length) : A.char n ∈ A.chars := by
  rw [char, List.getD_eq_getElem _ _ h]
  exact List.getElem_mem h

theorem digit_char {n : ℕ} (h : n < A.chars.length) : A.digit (A.char n) = n := by
  rw [digit, char, List.getD_eq_getElem _ _ h]
  exact A.nodup.idxOf_getElem n h

theorem char_digit {c : Char} (h : c ∈ A.chars) : A.char (A.digit c) = c := by
  rw [digit, char, List.getD_eq_getElem _ _ (List.idxOf_lt_length_of_mem h)]
  exact List.getElem_idxOf _

theorem map_digit_char {l : List ℕ} (hl : ∀ d ∈ l, d < A.chars.length) :
    (l.map A.char).map A.digit = l := by
  rw [List.map_map]
  conv_rhs => rw [← List.map_id l]
  exact List.map_congr_left fun d hd ↦ A.digit_char (hl d hd)

end Alphabet

/-! ## Canonical texts -/

section Canonical

variable {β : Type*} (encode : β → List Char) (read : List Char → β)

/-- Reads `s` if it is the text of what is read. -/
def canonical (s : List Char) : Option β := if encode (read s) = s then some (read s) else none

variable {encode read}

/-- Exactly the texts the encoder writes are accepted. -/
theorem canonical_eq_some (h : ∀ b, read (encode b) = b) {s : List Char} {b : β} :
    canonical encode read s = some b ↔ s = encode b := by
  rw [canonical, Option.ite_none_right_eq_some, Option.some.injEq]
  constructor
  · rintro ⟨hs, rfl⟩
    exact hs.symm
  · rintro rfl
    rw [h]
    exact ⟨rfl, rfl⟩

end Canonical

/-! ## Hex -/

namespace Hex

def alphabet : Alphabet := ⟨"0123456789abcdef".toList, by decide⟩

/-- Two digits a byte, the high one first. -/
def encode (b : Bytes) : List Char :=
  b.flatMap fun x ↦ [alphabet.char (x.toNat / 16), alphabet.char (x.toNat % 16)]

def read : List Char → Bytes
  | c :: d :: s => UInt8.ofNat (16 * alphabet.digit c + alphabet.digit d) :: read s
  | _ => []

/-- The decoder does not care about case. -/
def decode (s : List Char) : Option Bytes := canonical encode read (s.map Char.toLower)

theorem length_alphabet : alphabet.chars.length = 16 := rfl

theorem encode_cons (x : UInt8) (b : Bytes) : encode (x :: b)
    = alphabet.char (x.toNat / 16) :: alphabet.char (x.toNat % 16) :: encode b := rfl

theorem read_encode (b : Bytes) : read (encode b) = b := by
  induction b with
  | nil => rfl
  | cons x b ih =>
    have hx := x.toNat_lt
    rw [encode_cons, read, ih, alphabet.digit_char (by rw [length_alphabet]; omega),
      alphabet.digit_char (by rw [length_alphabet]; omega), Nat.div_add_mod, UInt8.ofNat_toNat]

theorem decode_eq_some {s : List Char} {b : Bytes} :
    decode s = some b ↔ s.map Char.toLower = encode b := canonical_eq_some read_encode

theorem length_encode (b : Bytes) : (encode b).length = 2 * b.length := by
  induction b with
  | nil => rfl
  | cons x b ih =>
    rw [encode_cons, List.length_cons, List.length_cons, ih, List.length_cons]
    omega

theorem mem_alphabet {b : Bytes} {c : Char} (h : c ∈ encode b) : c ∈ alphabet.chars := by
  obtain ⟨x, -, hc⟩ := List.mem_flatMap.mp h
  have hx := x.toNat_lt
  rcases List.mem_pair.mp hc with rfl | rfl
  · exact alphabet.char_mem (by rw [length_alphabet]; omega)
  · exact alphabet.char_mem (by rw [length_alphabet]; omega)

theorem encode_injective : Function.Injective encode := Function.LeftInverse.injective read_encode

theorem map_toLower_encode (b : Bytes) : (encode b).map Char.toLower = encode b := by
  have hlower : alphabet.chars.all (fun c ↦ c.toLower == c) = true := by decide
  conv_rhs => rw [← List.map_id (encode b)]
  exact List.map_congr_left fun c hc ↦ eq_of_beq (List.all_eq_true.mp hlower c (mem_alphabet hc))

/-- The texts the decoder accepts. -/
def IsText (s : List Char) : Prop := ∃ b, s.map Char.toLower = encode b

theorem isText_encode (b : Bytes) : IsText (encode b) := ⟨b, map_toLower_encode b⟩

theorem encode_read {s : List Char} (hs : ∀ c ∈ s, c ∈ alphabet.chars) (heven : 2 ∣ s.length) :
    encode (read s) = s := by
  induction s using read.induct with
  | case1 c d s ih =>
    have hc := List.idxOf_lt_length_of_mem (hs c List.mem_cons_self)
    have hd := List.idxOf_lt_length_of_mem (hs d (List.mem_cons_of_mem _ List.mem_cons_self))
    have hrest : ∀ e ∈ s, e ∈ alphabet.chars := fun e he ↦
      hs e (List.mem_cons_of_mem _ (List.mem_cons_of_mem _ he))
    have hlt : 16 * alphabet.digit c + alphabet.digit d < 256 := by
      rw [length_alphabet] at hc hd
      rw [Alphabet.digit, Alphabet.digit]
      omega
    have hhigh : (16 * alphabet.digit c + alphabet.digit d) / 16 = alphabet.digit c := by
      rw [length_alphabet] at hd
      rw [Alphabet.digit, Alphabet.digit]
      omega
    have hlow : (16 * alphabet.digit c + alphabet.digit d) % 16 = alphabet.digit d := by
      rw [length_alphabet] at hd
      rw [Alphabet.digit, Alphabet.digit]
      omega
    rw [read, encode_cons, UInt8.toNat_ofNat_of_lt' hlt, hhigh, hlow,
      alphabet.char_digit (hs c List.mem_cons_self),
      alphabet.char_digit (hs d (List.mem_cons_of_mem _ List.mem_cons_self)), ih hrest ?_]
    simp only [List.length_cons] at heven
    omega
  | case2 s hshort =>
    match s, hshort with
    | [], _ => rfl
    | [c], _ => exact absurd heven (by simp)
    | c :: d :: s, hshort => exact absurd rfl (hshort c d s)

/-- Pairs of hex digits in either case, and nothing else. -/
theorem isText_iff {s : List Char} :
    IsText s ↔ 2 ∣ s.length ∧ ∀ c ∈ s, c.toLower ∈ alphabet.chars := by
  constructor
  · rintro ⟨b, hb⟩
    refine ⟨?_, fun c hc ↦ mem_alphabet (hb ▸ List.mem_map_of_mem hc)⟩
    have hlen := congrArg List.length hb
    rw [List.length_map, length_encode] at hlen
    exact ⟨_, hlen⟩
  · rintro ⟨heven, hs⟩
    refine ⟨read (s.map Char.toLower), (encode_read ?_ ?_).symm⟩
    · intro c hc
      obtain ⟨d, hd, rfl⟩ := List.mem_map.mp hc
      exact hs d hd
    · rwa [List.length_map]

end Hex

/-! ## Base58 -/

namespace Base58

def alphabet : Alphabet :=
  ⟨"123456789ABCDEFGHJKLMNPQRSTUVWXYZabcdefghijkmnopqrstuvwxyz".toList, by decide⟩

/-- The bytes as digits in base 256, rewritten in base 58. -/
def encode (b : Bytes) : List Char :=
  (Radix.rebase 256 58 (b.map UInt8.toNat)).map alphabet.char

def read (s : List Char) : Bytes :=
  (Radix.rebase 58 256 (s.map alphabet.digit)).map UInt8.ofNat

def decode (s : List Char) : Option Bytes := canonical encode read s

theorem length_alphabet : alphabet.chars.length = 58 := rfl

theorem toNat_lt (b : Bytes) : ∀ d ∈ b.map UInt8.toNat, d < 256 := by
  intro d hd
  obtain ⟨x, -, rfl⟩ := List.mem_map.mp hd
  exact x.toNat_lt

theorem read_encode (b : Bytes) : read (encode b) = b := by
  have hdigits : ∀ d ∈ Radix.rebase 256 58 (b.map UInt8.toNat), d < alphabet.chars.length :=
    Radix.rebase_lt (by norm_num)
  rw [read, encode, alphabet.map_digit_char hdigits,
    Radix.rebase_rebase (by norm_num) (toNat_lt b), List.map_map]
  conv_rhs => rw [← List.map_id b]
  exact List.map_congr_left fun x _ ↦ UInt8.ofNat_toNat

theorem decode_eq_some {s : List Char} {b : Bytes} : decode s = some b ↔ s = encode b :=
  canonical_eq_some read_encode

theorem encode_injective : Function.Injective encode := Function.LeftInverse.injective read_encode

theorem mem_alphabet {b : Bytes} {c : Char} (h : c ∈ encode b) : c ∈ alphabet.chars := by
  obtain ⟨d, hd, rfl⟩ := List.mem_map.mp h
  exact alphabet.char_mem (Radix.rebase_lt (by rw [length_alphabet]; norm_num) d hd)

/-- The texts the decoder accepts. -/
def IsText (s : List Char) : Prop := ∃ b, s = encode b

theorem isText_iff {s : List Char} : IsText s ↔ ∀ c ∈ s, c ∈ alphabet.chars := by
  constructor
  · rintro ⟨b, rfl⟩ c hc
    exact mem_alphabet hc
  · intro hs
    have hdigits : ∀ d ∈ s.map alphabet.digit, d < 58 := by
      intro d hd
      obtain ⟨c, hc, rfl⟩ := List.mem_map.mp hd
      exact List.idxOf_lt_length_of_mem (hs c hc)
    have hbytes : ((Radix.rebase 58 256 (s.map alphabet.digit)).map UInt8.ofNat).map UInt8.toNat
        = Radix.rebase 58 256 (s.map alphabet.digit) := by
      rw [List.map_map]
      conv_rhs => rw [← List.map_id (Radix.rebase 58 256 _)]
      exact List.map_congr_left fun d hd ↦
        UInt8.toNat_ofNat_of_lt' (Radix.rebase_lt (by norm_num) d hd)
    refine ⟨read s, ?_⟩
    rw [encode, read, hbytes, Radix.rebase_rebase (by norm_num) hdigits, List.map_map]
    conv_lhs => rw [← List.map_id s]
    exact List.map_congr_left fun c hc ↦ (alphabet.char_digit (hs c hc)).symm

theorem encode_replicate_zero (k : ℕ) : encode (List.replicate k 0) = List.replicate k '1' := by
  rw [encode, List.map_replicate, UInt8.toNat_zero, Radix.rebase_replicate_zero, List.map_replicate]
  rfl

theorem length_encode_le {b : Bytes} {k : ℕ} (h : b.length = 2 * k) :
    (encode b).length ≤ 3 * k := by
  rw [encode, List.length_map]
  refine Radix.length_rebase_le (i := 2) (by norm_num) (by norm_num) (by norm_num) (by norm_num)
    (toNat_lt b) ?_
  rw [List.length_map, h]

end Base58

/-! ## Base64 -/

namespace Base64

def alphabet : Alphabet :=
  ⟨"ABCDEFGHIJKLMNOPQRSTUVWXYZabcdefghijklmnopqrstuvwxyz0123456789+/".toList, by decide⟩

/-- Four digits for three bytes; the last group is padded. -/
def encode : Bytes → List Char
  | [] => []
  | [x] => [alphabet.char (x.toNat / 4), alphabet.char (x.toNat % 4 * 16), '=', '=']
  | [x, y] => [alphabet.char (x.toNat / 4), alphabet.char (x.toNat % 4 * 16 + y.toNat / 16),
      alphabet.char (y.toNat % 16 * 4), '=']
  | x :: y :: z :: b =>
    alphabet.char (x.toNat / 4) :: alphabet.char (x.toNat % 4 * 16 + y.toNat / 16) ::
      alphabet.char (y.toNat % 16 * 4 + z.toNat / 64) :: alphabet.char (z.toNat % 64) :: encode b

/-- The first byte of a group. -/
def first (c d : Char) : UInt8 := UInt8.ofNat (alphabet.digit c * 4 + alphabet.digit d / 16)

/-- The second byte of a group. -/
def second (d e : Char) : UInt8 := UInt8.ofNat (alphabet.digit d % 16 * 16 + alphabet.digit e / 4)

/-- The third byte of a group. -/
def third (e f : Char) : UInt8 := UInt8.ofNat (alphabet.digit e % 4 * 64 + alphabet.digit f)

def read : List Char → Bytes
  | c :: d :: e :: f :: s =>
    if e = '=' then [first c d]
    else if f = '=' then [first c d, second d e]
    else first c d :: second d e :: third e f :: read s
  | _ => []

def decode (s : List Char) : Option Bytes := canonical encode read s

theorem length_alphabet : alphabet.chars.length = 64 := rfl

theorem char_ne_pad {n : ℕ} (h : n < 64) : alphabet.char n ≠ '=' := by
  intro heq
  have hmem : '=' ∈ alphabet.chars := heq ▸ alphabet.char_mem h
  exact absurd hmem (by decide)

theorem first_char (x : UInt8) {r : ℕ} (hr : r < 16) :
    first (alphabet.char (x.toNat / 4)) (alphabet.char (x.toNat % 4 * 16 + r)) = x := by
  have hx := x.toNat_lt
  have heq : x.toNat / 4 * 4 + (x.toNat % 4 * 16 + r) / 16 = x.toNat := by omega
  rw [first, alphabet.digit_char (by rw [length_alphabet]; omega),
    alphabet.digit_char (by rw [length_alphabet]; omega), heq, UInt8.ofNat_toNat]

theorem second_char {q r : ℕ} (hq : q < 4) (y : UInt8) (hr : r < 4) :
    second (alphabet.char (q * 16 + y.toNat / 16)) (alphabet.char (y.toNat % 16 * 4 + r)) = y := by
  have hy := y.toNat_lt
  have heq : (q * 16 + y.toNat / 16) % 16 * 16 + (y.toNat % 16 * 4 + r) / 4 = y.toNat := by omega
  rw [second, alphabet.digit_char (by rw [length_alphabet]; omega),
    alphabet.digit_char (by rw [length_alphabet]; omega), heq, UInt8.ofNat_toNat]

theorem third_char {q : ℕ} (hq : q < 16) (z : UInt8) :
    third (alphabet.char (q * 4 + z.toNat / 64)) (alphabet.char (z.toNat % 64)) = z := by
  have hz := z.toNat_lt
  have heq : (q * 4 + z.toNat / 64) % 4 * 64 + z.toNat % 64 = z.toNat := by omega
  rw [third, alphabet.digit_char (by rw [length_alphabet]; omega),
    alphabet.digit_char (by rw [length_alphabet]; omega), heq, UInt8.ofNat_toNat]

theorem read_encode (b : Bytes) : read (encode b) = b := by
  induction b using encode.induct with
  | case1 => rfl
  | case2 x =>
    have hfirst := first_char x (r := 0) (by norm_num)
    rw [Nat.add_zero] at hfirst
    rw [encode, read, if_pos rfl, hfirst]
  | case3 x y =>
    have hy := y.toNat_lt
    have hsecond := second_char (Nat.mod_lt x.toNat (by norm_num)) y (r := 0) (by norm_num)
    rw [Nat.add_zero] at hsecond
    rw [encode, read, if_neg (char_ne_pad (by omega)), if_pos rfl, first_char x (by omega), hsecond]
  | case4 x y z b ih =>
    have hy := y.toNat_lt
    have hz := z.toNat_lt
    rw [encode, read, if_neg (char_ne_pad (by omega)), if_neg (char_ne_pad (by omega)), ih,
      first_char x (by omega), second_char (Nat.mod_lt _ (by norm_num)) y (by omega),
      third_char (Nat.mod_lt _ (by norm_num)) z]

theorem decode_eq_some {s : List Char} {b : Bytes} : decode s = some b ↔ s = encode b :=
  canonical_eq_some read_encode

theorem length_encode (b : Bytes) : (encode b).length = (b.length + 2) / 3 * 4 := by
  induction b using encode.induct with
  | case1 => rfl
  | case2 x => simp [encode]
  | case3 x y => simp [encode]
  | case4 x y z b ih =>
    rw [encode]
    simp only [List.length_cons, ih]
    omega

/-- The texts the decoder accepts. -/
def IsText (s : List Char) : Prop := ∃ b, s = encode b

theorem pad_mem_encode {b : Bytes} (h : b.length % 3 ≠ 0) : '=' ∈ encode b := by
  induction b using encode.induct with
  | case1 => exact absurd rfl h
  | case2 x => exact List.mem_of_getElem? (i := 2) rfl
  | case3 x y => exact List.mem_of_getElem? (i := 3) rfl
  | case4 x y z b ih =>
    rw [encode]
    have hrest : b.length % 3 ≠ 0 := by
      simp only [List.length_cons] at h
      omega
    simp only [List.mem_cons, ih hrest, or_true]

end Base64

/-! ## UTF-8 -/

namespace Utf8

def encode (s : List Char) : Bytes := s.flatMap String.utf8EncodeChar

def decode (b : Bytes) : Option (List Char) := b.toByteArray.utf8Decode?.map Array.toList

theorem toByteArray_encode (s : List Char) : (encode s).toByteArray = s.utf8Encode := rfl

theorem decode_eq_some {b : Bytes} {s : List Char} : decode b = some s ↔ b = encode s := by
  rw [decode, Option.map_eq_some_iff]
  constructor
  · rintro ⟨a, ha, rfl⟩
    have hsome : (b.toByteArray.utf8Decode?).isSome := Option.isSome_of_mem ha
    have hget := ByteArray.utf8Encode_get_utf8Decode? (h := hsome)
    rw [Option.get_of_mem hsome ha, ← toByteArray_encode] at hget
    exact (List.toByteArray_inj.mp hget).symm
  · rintro rfl
    refine ⟨s.toArray, ?_, rfl⟩
    rw [toByteArray_encode, List.utf8Decode?_utf8Encode]

end Utf8

end Foundation
