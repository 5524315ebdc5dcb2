import Zescrow.Foundation.Bytes

/-!
# SHA-256

The hash function of FIPS 180-4, executable in the kernel. Results that hold of any hash take it as
a parameter; this definition is what they are instantiated with on concrete inputs.

A message is padded to whole blocks of sixteen 32-bit words. Each block runs sixty-four rounds over
eight working variables, consuming a message schedule that is kept as a window of sixteen words:
a round uses the oldest word of the window and pushes the next one of the recurrence.
-/

namespace Foundation.Sha256

/-- A 32-bit word. -/
abbrev Word := BitVec 32

/-- The eight working variables, which are also the chaining value between blocks. -/
structure State where
  (a b c d e f g h : Word)

/-- The first 32 bits of the fractional parts of the cube roots of the first 64 primes. -/
def roundConstants : List Word := [
  0x428a2f98, 0x71374491, 0xb5c0fbcf, 0xe9b5dba5, 0x3956c25b, 0x59f111f1, 0x923f82a4, 0xab1c5ed5,
  0xd807aa98, 0x12835b01, 0x243185be, 0x550c7dc3, 0x72be5d74, 0x80deb1fe, 0x9bdc06a7, 0xc19bf174,
  0xe49b69c1, 0xefbe4786, 0x0fc19dc6, 0x240ca1cc, 0x2de92c6f, 0x4a7484aa, 0x5cb0a9dc, 0x76f988da,
  0x983e5152, 0xa831c66d, 0xb00327c8, 0xbf597fc7, 0xc6e00bf3, 0xd5a79147, 0x06ca6351, 0x14292967,
  0x27b70a85, 0x2e1b2138, 0x4d2c6dfc, 0x53380d13, 0x650a7354, 0x766a0abb, 0x81c2c92e, 0x92722c85,
  0xa2bfe8a1, 0xa81a664b, 0xc24b8b70, 0xc76c51a3, 0xd192e819, 0xd6990624, 0xf40e3585, 0x106aa070,
  0x19a4c116, 0x1e376c08, 0x2748774c, 0x34b0bcb5, 0x391c0cb3, 0x4ed8aa4a, 0x5b9cca4f, 0x682e6ff3,
  0x748f82ee, 0x78a5636f, 0x84c87814, 0x8cc70208, 0x90befffa, 0xa4506ceb, 0xbef9a3f7, 0xc67178f2]

/-- The first 32 bits of the fractional parts of the square roots of the first eight primes. -/
def initial : State :=
  ⟨0x6a09e667, 0xbb67ae85, 0x3c6ef372, 0xa54ff53a, 0x510e527f, 0x9b05688c, 0x1f83d9ab, 0x5be0cd19⟩

/-- A one bit, zeros to the last eight bytes of a block, and the length in bits. -/
def pad (message : Bytes) : Bytes :=
  message ++ 0x80 :: List.replicate ((119 - message.length % 64) % 64) 0
    ++ toBE 8 (8 * message.length)

/-- The big-endian words of a padded message. -/
def words : Bytes → List Word
  | b₀ :: b₁ :: b₂ :: b₃ :: rest => BitVec.ofNat 32 (ofBE [b₀, b₁, b₂, b₃]) :: words rest
  | _ => []

/-- The word that follows a window of sixteen words of the message schedule. -/
def nextWord (window : List Word) : Word :=
  let w₁ := window.getD 1 0
  let w₁₄ := window.getD 14 0
  let σ₀ := w₁.rotateRight 7 ^^^ w₁.rotateRight 18 ^^^ (w₁ >>> 3)
  let σ₁ := w₁₄.rotateRight 17 ^^^ w₁₄.rotateRight 19 ^^^ (w₁₄ >>> 10)
  σ₁ + window.getD 9 0 + σ₀ + window.getD 0 0

def round (s : State) (k w : Word) : State :=
  let sum₁ := s.e.rotateRight 6 ^^^ s.e.rotateRight 11 ^^^ s.e.rotateRight 25
  let choice := (s.e &&& s.f) ^^^ (~~~s.e &&& s.g)
  let t₁ := s.h + sum₁ + choice + k + w
  let sum₀ := s.a.rotateRight 2 ^^^ s.a.rotateRight 13 ^^^ s.a.rotateRight 22
  let majority := (s.a &&& s.b) ^^^ (s.a &&& s.c) ^^^ (s.b &&& s.c)
  ⟨t₁ + (sum₀ + majority), s.a, s.b, s.c, s.d + t₁, s.e, s.f, s.g⟩

/-- The rounds of one block; the window slides by one word a round. -/
def rounds : List Word → List Word → State → State
  | [], _, s => s
  | k :: ks, window, s =>
    rounds ks (window.tail ++ [nextWord window]) (round s k (window.getD 0 0))

def compress (s : State) (block : List Word) : State :=
  let t := rounds roundConstants block s
  ⟨s.a + t.a, s.b + t.b, s.c + t.c, s.d + t.d, s.e + t.e, s.f + t.f, s.g + t.g, s.h + t.h⟩

/-- The chaining value after the first `n` blocks. -/
def blocks : ℕ → State → List Word → State
  | 0, s, _ => s
  | n + 1, s, ws => blocks n (compress s (ws.take 16)) (ws.drop 16)

def digest (message : Bytes) : FixedBytes 32 :=
  let padded := pad message
  let s := blocks (padded.length / 64) initial (words padded)
  ⟨toBE 4 s.a.toNat ++ toBE 4 s.b.toNat ++ toBE 4 s.c.toNat ++ toBE 4 s.d.toNat
    ++ toBE 4 s.e.toNat ++ toBE 4 s.f.toNat ++ toBE 4 s.g.toNat ++ toBE 4 s.h.toNat, by simp⟩

-- The one-block test vector of the standard.
example : ofBE (digest (ascii "abc")).1
    = 0xba7816bf8f01cfea414140de5dae2223b00361a396177a9cb410ff61f20015ad := by
  decide +kernel

end Foundation.Sha256
