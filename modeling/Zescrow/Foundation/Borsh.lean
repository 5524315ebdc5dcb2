import Zescrow.Foundation.Parser

/-!
# The Borsh wire format

Integers are little-endian at their full width, an option is a tag byte and then the value, a byte
vector is its 32-bit length and then its bytes, and a struct is its fields one after the other. The
format is canonical: a reader accepts what the writer writes and nothing else, so each has one exact
description. A reader takes what it needs from the front and does not ask for the input to end.
-/

open Foundation.Parser

namespace Foundation.Borsh

/-- The format gives no reasons. -/
abbrev Reader := Parser Unit

/-! ## Writing -/

def u64 (n : UInt64) : Bytes := toLE 8 n.toNat

def option {α : Type} (enc : α → Bytes) : Option α → Bytes
  | none => [0]
  | some a => 1 :: enc a

/-- A byte vector, which has to be short enough for its length to be written. -/
def byteVec (b : Bytes) : Option Bytes :=
  if b.length < 2 ^ 32 then some (toLE 4 b.length ++ b) else none

/-! ## Reading -/

def readBytes (n : ℕ) : Reader Bytes := take (fun _ ↦ ()) n

def readArray (n : ℕ) : Reader (FixedBytes n) := takeFixed (fun _ ↦ ()) n

def readU64 : Reader UInt64 := do
  let b ← readBytes 8
  pure (UInt64.ofNat (ofLE b))

def readU8 : Reader UInt8 := next fun _ ↦ ()

def readOption {α : Type} (value : Reader α) : Reader (Option α) := do
  let tag ← readU8
  match tag with
  | 0 => pure none
  | 1 => do
    let a ← value
    pure (some a)
  | _ => fail ()

def readByteVec : Reader Bytes := do
  let len ← readBytes 4
  readBytes (ofLE len)

/-! ## The readers are exact -/

theorem exact_readBytes (n : ℕ) : Exact (readBytes n) fun x b ↦ x = b ∧ b.length = n :=
  exact_take _ n

theorem exact_readArray (n : ℕ) :
    Exact (readArray n : Reader (FixedBytes n)) fun x b ↦ True ∧ b = x.1 := exact_takeFixed _ n

theorem toNat_ofNat_ofLE {b : Bytes} (h : b.length = 8) :
    (UInt64.ofNat (ofLE b)).toNat = ofLE b := by
  have hlt := ofLE_lt b
  rw [h] at hlt
  exact UInt64.toNat_ofNat_of_lt' hlt

theorem exact_readU64 : Exact readU64 fun x b ↦ True ∧ b = u64 x := by
  refine (exact_bind (exact_readBytes 8) fun b ↦ exact_pure _).congr fun x b ↦ ?_
  constructor
  · rintro ⟨b, _, _, rfl, ⟨rfl, hlen⟩, rfl, rfl⟩
    rw [u64, toNat_ofNat_ofLE hlen, toLE_ofLE_of_length hlen, List.append_nil]
    exact ⟨trivial, rfl⟩
  · rintro ⟨-, rfl⟩
    refine ⟨_, _, [], (List.append_nil _).symm, ⟨rfl, length_toLE _ _⟩, ?_, rfl⟩
    rw [u64, ofLE_toLE x.toNat_lt, UInt64.ofNat_toNat]

theorem exact_readU8 : Exact readU8 fun x b ↦ True ∧ b = [x] := by
  rintro i pre s rfl x c
  have hget : (pre ++ s)[pre.length]? = s.head? := by
    rw [List.getElem?_append_right le_rfl, Nat.sub_self, List.head?_eq_getElem?]
  simp only [readU8, next, hget]
  cases s with
  | nil => simp
  | cons y s =>
    simp only [List.head?_cons, Except.ok.injEq, Prod.mk.injEq]
    constructor
    · rintro ⟨rfl, rfl⟩
      exact ⟨[y], s, rfl, ⟨trivial, rfl⟩, rfl⟩
    · rintro ⟨_, rest, hs, ⟨-, rfl⟩, rfl⟩
      exact ⟨(List.cons.inj hs).1, rfl⟩

theorem exact_readOption {α : Type} {value : Reader α} {P : α → Prop} {enc : α → Bytes}
    (h : Exact value fun a b ↦ P a ∧ b = enc a) :
    Exact (readOption value) fun o b ↦ (∀ a ∈ o, P a) ∧ b = option enc o := by
  have htag (tag : UInt8) : Exact (match tag with
      | 0 => pure none
      | 1 => do
        let a ← value
        pure (some a)
      | _ => fail () : Reader (Option α)) fun o b ↦ (∀ a ∈ o, P a) ∧ tag :: b = option enc o := by
    split
    · refine (exact_pure none).congr fun o b ↦ ?_
      cases o with
      | none => simp [option]
      | some a => simp [option]
    · refine (exact_bind h fun a ↦ exact_pure (some a)).congr fun o b ↦ ?_
      rw [seq_iff]
      cases o with
      | none => simp [option]
      | some a => simp [option, and_comm]
    · next hzero hone =>
      refine exact_fail_of fun o b hb ↦ ?_
      cases o with
      | none => exact hzero (List.cons.inj hb.2).1
      | some a => exact hone (List.cons.inj hb.2).1
  refine (exact_bind exact_readU8 htag).congr fun o b ↦ ?_
  rw [seq_iff]
  constructor
  · rintro ⟨tag, b, rfl, -, hP, hb⟩
    exact ⟨hP, hb⟩
  · rintro ⟨hP, rfl⟩
    cases o with
    | none => exact ⟨0, [], rfl, trivial, hP, rfl⟩
    | some a => exact ⟨1, enc a, rfl, trivial, hP, rfl⟩

theorem exact_readByteVec : Exact readByteVec fun x b ↦ byteVec x = some b := by
  refine (exact_bind (exact_readBytes 4) fun len ↦ exact_readBytes _).congr fun x b ↦ ?_
  rw [byteVec]
  constructor
  · rintro ⟨len, _, t, rfl, ⟨rfl, hlen⟩, rfl, hx⟩
    have hlt := ofLE_lt len
    rw [hlen] at hlt
    rw [if_pos (hx ▸ hlt), hx, ← hlen, toLE_ofLE]
  · intro h
    obtain ⟨hlt, hb⟩ := Option.ite_none_right_eq_some.mp h
    exact ⟨_, _, x, (Option.some.inj hb).symm, ⟨rfl, length_toLE _ _⟩, rfl, (ofLE_toLE hlt).symm⟩

end Foundation.Borsh
