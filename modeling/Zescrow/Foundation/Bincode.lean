import Zescrow.Foundation.Parser
import Zescrow.Foundation.TextEncoding

/-!
# The bincode wire format

The standard configuration of bincode 2: little-endian, integers of variable length, no limit. An
integer up to 250 is one byte; a larger one is a marker and then two, four or eight bytes. An
enumeration is the index of its variant and then the variant; an option is a tag byte and then the
value; a vector or a string is its length and then its content. Arrays, structs and tuples are their
parts one after the other.

What is written on one machine is read on another, so a reader knows how wide its own `usize` is. A
length must fit it, and so must the content it announces: whoever holds the whole frame in memory
has no length in it that is too large.
-/

open Foundation.Parser

namespace Foundation.Bincode

/-- Why a frame does not decode. -/
inductive DecodeError where
  | unexpectedEnd
  | invalidIntegerType (marker : UInt8)
  | unexpectedVariant (found : ℕ)
  | outsideUsizeRange (value : ℕ)
  | utf8
  deriving DecidableEq, Repr

/-- The width of `usize`. -/
inductive PointerWidth where
  | bits32
  | bits64
  deriving DecidableEq

/-- The number of values of `usize`. -/
def PointerWidth.limit : PointerWidth → ℕ
  | bits32 => 2 ^ 32
  | bits64 => 2 ^ 64

abbrev Reader := Parser DecodeError

/-! ## Writing -/

/-- An unsigned integer of any width. -/
def varint (n : ℕ) : Bytes :=
  if n ≤ 250 then [UInt8.ofNat n]
  else if n < 2 ^ 16 then 251 :: toLE 2 n
  else if n < 2 ^ 32 then 252 :: toLE 4 n
  else 253 :: toLE 8 n

def vec {α : Type} (enc : α → Bytes) (l : List α) : Bytes := varint l.length ++ l.flatMap enc

def byteVec (b : Bytes) : Bytes := varint b.length ++ b

def string (s : List Char) : Bytes := byteVec (Utf8.encode s)

def option {α : Type} (enc : α → Bytes) : Option α → Bytes
  | none => [0]
  | some a => 1 :: enc a

/-- A variant without fields, of an enumeration given by its variants as they are declared. -/
def unitVariant {α : Type} [DecidableEq α] (variants : List α) (a : α) : Bytes :=
  varint (variants.idxOf a)

/-! ## Reading -/

def readU8 : Reader UInt8 := next fun _ ↦ .unexpectedEnd

def readBytes (n : ℕ) : Reader Bytes := take (fun _ ↦ .unexpectedEnd) n

def readArray (n : ℕ) : Reader (FixedBytes n) := takeFixed (fun _ ↦ .unexpectedEnd) n

/-- How many bytes follow a marker. The markers of 128 bits and beyond are not used here. -/
def announced (marker : UInt8) : Option ℕ :=
  if marker = 251 then some 2
  else if marker = 252 then some 4
  else if marker = 253 then some 8
  else none

/-- An integer of at most `width` bytes. -/
def readVarint (width : ℕ) : Reader ℕ := do
  let marker ← readU8
  if marker.toNat ≤ 250 then pure marker.toNat
  else match announced marker with
    | some k => do
      check (k ≤ width) (.invalidIntegerType marker)
      let b ← readBytes k
      pure (ofLE b)
    | none => fail (.invalidIntegerType marker)

def readU32 : Reader ℕ := readVarint 4

def readU64 : Reader ℕ := readVarint 8

/-- A `usize`, cut to the width of this machine's. -/
def readUsize (p : PointerWidth) : Reader ℕ := do
  let v ← readU64
  pure (v % p.limit)

/-- The length of a container. -/
def readLen (p : PointerWidth) : Reader ℕ := do
  let v ← readU64
  check (v < p.limit) (.outsideUsizeRange v)
  pure v

def readVec {α : Type} (p : PointerWidth) (item : Reader α) : Reader (List α) := do
  let len ← readLen p
  times len item

def readByteVec (p : PointerWidth) : Reader Bytes := do
  let len ← readLen p
  readBytes len

def readString (p : PointerWidth) : Reader (List Char) := do
  let b ← readByteVec p
  match Utf8.decode b with
  | some s => pure s
  | none => fail .utf8

def readOption {α : Type} (value : Reader α) : Reader (Option α) := do
  let tag ← readU8
  match tag.toNat with
  | 0 => pure none
  | 1 => do
    let a ← value
    pure (some a)
  | found => fail (.unexpectedVariant found)

def readUnitVariant {α : Type} (variants : List α) : Reader α := do
  let index ← readU32
  match variants[index]? with
  | some a => pure a
  | none => fail (.unexpectedVariant index)

/-- Decodes a value from the start of a frame, and says how many bytes it took. -/
def decodeFromSlice {α : Type} (r : Reader α) (frame : Bytes) : Except DecodeError (α × ℕ) :=
  (r ⟨frame, 0⟩).map fun ac ↦ (ac.1, ac.2.offset)

/-! ## Reading back what was written -/

theorem reads_check {c : Prop} [Decidable c] {e : DecodeError} (h : c) :
    Reads (check c e) () [] := (exact_check c e).reads ⟨h, rfl⟩

theorem reads_u8 (x : UInt8) : Reads readU8 x [x] := reads_next _ x

theorem reads_bytes (b : Bytes) : Reads (readBytes b.length) b b :=
  (exact_take _ _).reads ⟨rfl, rfl⟩

theorem reads_array {n : ℕ} (x : FixedBytes n) : Reads (readArray n) x x.1 :=
  (exact_takeFixed _ _).reads ⟨trivial, rfl⟩

theorem reads_announced {width k n : ℕ} {marker : UInt8} (hmarker : announced marker = some k)
    (hbig : ¬marker.toNat ≤ 250) (hk : k ≤ width) (hn : n < 256 ^ k) :
    Reads (readVarint width) n (marker :: toLE k n) := by
  have hbytes := reads_bytes (toLE k n)
  rw [length_toLE] at hbytes
  have hvalue := hbytes.bind_pure (g := ofLE)
  rw [ofLE_toLE hn] at hvalue
  refine (reads_u8 marker).bind (t := toLE k n) ?_
  rw [if_neg hbig, hmarker]
  exact (reads_check hk).bind hvalue

theorem reads_varint {width n : ℕ} (hwidth : width = 4 ∨ width = 8) (hn : n < 256 ^ width) :
    Reads (readVarint width) n (varint n) := by
  have hle : 4 ≤ width := by omega
  rw [varint]
  split
  · next hsmall =>
    have hval : (UInt8.ofNat n).toNat = n :=
      UInt8.toNat_ofNat_of_lt' (lt_of_le_of_lt hsmall (by decide))
    have hread : Reads (readVarint width) (UInt8.ofNat n).toNat [UInt8.ofNat n] := by
      refine (reads_u8 _).bind (t := []) ?_
      rw [if_pos (by omega)]
      exact reads_pure _
    rwa [hval] at hread
  split
  · next h16 => exact reads_announced rfl (by decide) (by omega) (by omega)
  split
  · next h32 => exact reads_announced rfl (by decide) hle (by omega)
  · next h32 =>
    obtain rfl | rfl := hwidth
    · exact absurd hn h32
    · exact reads_announced rfl (by decide) le_rfl hn

theorem reads_u32 {n : ℕ} (h : n < 2 ^ 32) : Reads readU32 n (varint n) :=
  reads_varint (.inl rfl) (by omega)

theorem reads_u64 {n : ℕ} (h : n < 2 ^ 64) : Reads readU64 n (varint n) :=
  reads_varint (.inr rfl) (by omega)

variable {p : PointerWidth}

theorem PointerWidth.limit_le (p : PointerWidth) : p.limit ≤ 2 ^ 64 := by
  cases p <;> decide

theorem PointerWidth.le_limit (p : PointerWidth) : 2 ^ 32 ≤ p.limit := by
  cases p <;> decide

theorem reads_usize {n : ℕ} (h : n < p.limit) : Reads (readUsize p) n (varint n) := by
  have hread := (reads_u64 (h.trans_le p.limit_le)).bind_pure (g := (· % p.limit))
  rwa [Nat.mod_eq_of_lt h] at hread

theorem reads_len {n : ℕ} (h : n < p.limit) : Reads (readLen p) n (varint n) := by
  have hread := (reads_u64 (h.trans_le p.limit_le)).bind
    (f := fun v ↦ check (v < p.limit) (.outsideUsizeRange v) >>= fun _ ↦ pure v)
    ((reads_check h).bind (reads_pure n))
  rwa [List.append_nil, List.append_nil] at hread

/-! ## Values that fit the memory of their reader -/

/-- A string of bytes that the machine can hold. -/
def Fits (p : PointerWidth) (b : Bytes) : Prop := b.length < p.limit

theorem Fits.left {b t : Bytes} (h : Fits p (b ++ t)) : Fits p b := by
  rw [Fits, List.length_append] at h
  rw [Fits]
  omega

theorem Fits.right {b t : Bytes} (h : Fits p (b ++ t)) : Fits p t := by
  rw [Fits, List.length_append] at h
  rw [Fits]
  omega

theorem Fits.tail {x : UInt8} {b : Bytes} (h : Fits p (x :: b)) : Fits p b :=
  Fits.right (b := [x]) h

theorem Fits.of_mem_flatMap {α : Type} {enc : α → Bytes} {l : List α} (h : Fits p (l.flatMap enc))
    {a : α} (ha : a ∈ l) : Fits p (enc a) := by
  obtain ⟨l₁, l₂, rfl⟩ := List.append_of_mem ha
  rw [List.flatMap_append, List.flatMap_cons] at h
  exact h.right.left

theorem reads_byteVec {b : Bytes} (h : Fits p (byteVec b)) : Reads (readByteVec p) b (byteVec b) :=
  (reads_len h.right).bind (reads_bytes b)

theorem reads_string {s : List Char} (h : Fits p (string s)) :
    Reads (readString p) s (string s) := by
  have hdecode : Utf8.decode (Utf8.encode s) = some s := Utf8.decode_eq_some.mpr rfl
  have hread := (reads_byteVec h).bind (y := s) (t := []) (f := fun b ↦
    match Utf8.decode b with
    | some s => pure s
    | none => fail .utf8) (by rw [hdecode]; exact reads_pure s)
  rwa [List.append_nil] at hread

/-- Every item takes a byte at least, so the machine has room for their number. -/
theorem reads_vec {α : Type} {enc : α → Bytes} {item : Reader α} {l : List α}
    (h : Fits p (vec enc l)) (hne : ∀ a ∈ l, enc a ≠ [])
    (hitem : ∀ a ∈ l, Fits p (enc a) → Reads item a (enc a)) :
    Reads (readVec p item) l (vec enc l) := by
  have hlen : l.length ≤ (l.flatMap enc).length := by
    have hsum := List.length_le_sum_of_one_le (l.map fun a ↦ (enc a).length) fun n hn ↦ by
      obtain ⟨a, ha, rfl⟩ := List.mem_map.mp hn
      exact List.length_pos_iff.mpr (hne a ha)
    rwa [List.length_map, ← List.length_flatMap] at hsum
  refine (reads_len (lt_of_le_of_lt hlen h.right)).bind (reads_times fun a ha ↦ ?_)
  exact hitem a ha (Fits.of_mem_flatMap h.right ha)

theorem reads_option {α : Type} {enc : α → Bytes} {value : Reader α} {o : Option α}
    (hvalue : ∀ a, o = some a → Reads value a (enc a)) :
    Reads (readOption value) o (option enc o) := by
  cases o with
  | none => exact (reads_u8 0).bind (t := []) (reads_pure none)
  | some a => exact (reads_u8 1).bind (t := enc a) (hvalue a rfl).bind_pure

theorem reads_unitVariant {α : Type} [DecidableEq α] {variants : List α} {a : α}
    (ha : a ∈ variants) (hlen : variants.length ≤ 2 ^ 32) :
    Reads (readUnitVariant variants) a (unitVariant variants a) := by
  have hindex := List.idxOf_lt_length_of_mem ha
  have hget : variants[variants.idxOf a]? = some a := by
    rw [List.getElem?_eq_getElem hindex, List.getElem_idxOf hindex]
  have hread := (reads_u32 (hindex.trans_le hlen)).bind (y := a) (t := []) (f := fun index ↦
    match variants[index]? with
    | some a => pure a
    | none => fail (.unexpectedVariant index)) (by rw [hget]; exact reads_pure a)
  rwa [List.append_nil] at hread

theorem varint_ne_nil (n : ℕ) : varint n ≠ [] := by
  rw [varint]
  split
  · exact List.cons_ne_nil _ _
  split
  · exact List.cons_ne_nil _ _
  split
  · exact List.cons_ne_nil _ _
  · exact List.cons_ne_nil _ _

theorem decodeFromSlice_of_reads {α : Type} {r : Reader α} {a : α} {b : Bytes} (h : Reads r a b) :
    decodeFromSlice r b = .ok (a, b.length) := by
  have hread := h [] []
  rw [List.append_nil, List.nil_append, List.length_nil, Nat.zero_add] at hread
  rw [decodeFromSlice, hread]
  rfl

end Foundation.Bincode
