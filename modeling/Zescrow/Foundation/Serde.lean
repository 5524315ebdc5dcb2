import Zescrow.Foundation.Json
import Zescrow.Foundation.Outcome
import Zescrow.Foundation.TextEncoding

/-!
# Values read from JSON

What is derived for a type to read it from a JSON value. A struct is read from an object, in any
order of its members and with others in between, or from an array of its fields in their order. A
variant of an enumeration is its name, or an object whose only member is the name with the content
of the variant; or name and content are two fields. Nothing is read twice: a field that occurs
twice is refused.

Errors say what went wrong, but which of several errors is reported is not looked at.
-/

namespace Foundation.Serde

/-- Why a value is not read. -/
inductive DeError where
  | invalidType
  | invalidValue
  | invalidLength
  | missingField (name : String)
  | duplicateField (name : String)
  | unknownVariant
  deriving DecidableEq

/-- Reads a value of a type. -/
abbrev De (α : Type) := Json → Except DeError α

/-! ## Scalars and lists -/

def readBool : De Bool
  | .bool b => .ok b
  | _ => .error .invalidType

def readString : De (List Char)
  | .string s => .ok s
  | _ => .error .invalidType

/-- A natural number below a bound, written without a sign, a point or an exponent. -/
def readNat (bound : ℕ) : De ℕ
  | .number l =>
    if Decimal.IsNumeral l.chars ∧ Decimal.value l.chars < bound then .ok (Decimal.value l.chars)
    else .error .invalidValue
  | _ => .error .invalidType

def readU8 : De UInt8 := fun v ↦ do
  let n ← readNat (2 ^ 8) v
  .ok (UInt8.ofNat n)

def readU64 : De UInt64 := fun v ↦ do
  let n ← readNat (2 ^ 64) v
  .ok (UInt64.ofNat n)

/-- Reads one item after the other. -/
def readItems {α : Type} (read : De α) : List Json → Except DeError (List α)
  | [] => .ok []
  | v :: items => do
    let a ← read v
    let rest ← readItems read items
    .ok (a :: rest)

def readVec {α : Type} (read : De α) : De (List α)
  | .array items => readItems read items
  | _ => .error .invalidType

/-- Bytes, as numbers or as the text they encode. -/
def readByteBuf : De Bytes
  | .array items => readItems readU8 items
  | .string s => .ok (Utf8.encode s)
  | _ => .error .invalidType

def readOption {α : Type} (read : De α) : De (Option α)
  | .null => .ok none
  | v => do
    let a ← read v
    .ok (some a)

/-! ## Structs -/

/-- The values of the fields of a struct, where there are any. -/
def readFields (names : List String) : Json → Except DeError (String → Option Json)
  | .object members =>
    match names.find? fun name ↦ 1 < members.countP (·.1 = name.toList) with
    | some name => .error (.duplicateField name)
    | none => .ok fun name ↦ (members.find? (·.1 = name.toList)).map Prod.snd
  | .array items =>
    if items.length = names.length then .ok fun name ↦ items[names.idxOf name]?
    else .error .invalidLength
  | _ => .error .invalidType

/-- Reads a field that has to be there. -/
def requiredField {α : Type} (read : De α) (values : String → Option Json) (name : String) :
    Except DeError α :=
  match values name with
  | some v => read v
  | none => .error (.missingField name)

/-- Reads a field that may be missing. -/
def optionalField {α : Type} (read : De α) (values : String → Option Json) (name : String) :
    Except DeError (Option α) :=
  match values name with
  | some v => readOption read v
  | none => .ok none

/-! ## Enumerations -/

/-- The name of a variant and its content, if there is any. -/
def readVariant : Json → Except DeError (List Char × Option Json)
  | .string name => .ok (name, none)
  | .object [(name, content)] => .ok (name, some content)
  | _ => .error .invalidType

/-- What belongs to the variant of this name. -/
def findVariant {β : Type} (variants : List (String × β)) (name : List Char) : Except DeError β :=
  match variants.find? (·.1.toList = name) with
  | some variant => .ok variant.2
  | none => .error .unknownVariant

/-- Reads an enumeration without contents. -/
def readUnitVariant {α : Type} (variants : List (String × α)) : De α := fun v ↦ do
  let (name, content) ← readVariant v
  match content with
  | none | some .null => findVariant variants name
  | some _ => .error .invalidType

/-- Reads an enumeration whose variants all have contents. -/
def readNewtypeVariant {α : Type} (variants : List (String × De α)) : De α := fun v ↦ do
  let (name, content) ← readVariant v
  let read ← findVariant variants name
  match content with
  | some content => read content
  | none => .error .invalidType

/-- Reads an enumeration whose variant and content are fields of their own. -/
def readAdjacent {α β : Type} (tag content : String) (variants : List (String × β))
    (read : β → De α) : De α := fun v ↦ do
  let values ← readFields [tag, content] v
  let variant ← requiredField (readUnitVariant variants) values tag
  requiredField (read variant) values content

/-! ## What was written is read -/

section

variable {α : Type} {read : De α} {toJson : α → Json}

theorem readNat_ofNat {bound n : ℕ} (h : n < bound) :
    readNat bound (.number (.ofNat n)) = .ok n := by
  have hvalue : Decimal.value (Json.Literal.ofNat n).chars = n := Decimal.value_numeral n
  have hnumeral : Decimal.IsNumeral (Json.Literal.ofNat n).chars := Decimal.isNumeral_numeral n
  rw [readNat, hvalue, if_pos ⟨hnumeral, h⟩]

theorem readU8_ofNat (n : UInt8) : readU8 (.number (.ofNat n.toNat)) = .ok n := by
  rw [readU8, readNat_ofNat n.toNat_lt, ok_bind, UInt8.ofNat_toNat]

theorem readU64_ofNat (n : UInt64) : readU64 (.number (.ofNat n.toNat)) = .ok n := by
  rw [readU64, readNat_ofNat n.toNat_lt, ok_bind, UInt64.ofNat_toNat]

theorem readItems_map {l : List α} (h : ∀ a ∈ l, read (toJson a) = .ok a) :
    readItems read (l.map toJson) = .ok l := by
  induction l with
  | nil => rfl
  | cons a l ih =>
    obtain ⟨ha, hl⟩ := List.forall_mem_cons.mp h
    rw [List.map_cons, readItems, ha, ok_bind, ih hl, ok_bind]

theorem readOption_of_ne_null {v : Json} {a : α} (hne : v ≠ .null) (h : read v = .ok a) :
    readOption read v = .ok (some a) := by
  rw [readOption, h, ok_bind]
  exact hne

theorem findVariant_cons {β : Type} (s name : String) (b : β) (variants : List (String × β)) :
    findVariant ((s, b) :: variants) name.toList =
      if s = name then .ok b else findVariant variants name.toList := by
  by_cases h : s = name
  · have hhead : decide (s.toList = name.toList) = true := decide_eq_true (h ▸ rfl)
    simp only [findVariant, List.find?_cons, hhead, if_pos h]
  · have hhead : decide (s.toList = name.toList) = false :=
      decide_eq_false fun h' ↦ h (String.toList_inj.mp h')
    simp only [findVariant, List.find?_cons, hhead, if_neg h]

theorem readUnitVariant_string {variants : List (String × α)} {name : List Char} :
    readUnitVariant variants (.string name) = findVariant variants name := rfl

theorem readNewtypeVariant_object {variants : List (String × De α)} {name : List Char} {v : Json} :
    readNewtypeVariant variants (.object [(name, v)]) =
      (findVariant variants name >>= fun read ↦ read v) := rfl

theorem readFields_object {members : List (String × Json)}
    (hnames : (members.map Prod.fst).Nodup) :
    readFields (members.map Prod.fst) (.object (members.map fun m ↦ (m.1.toList, m.2))) =
      .ok fun name ↦ (members.find? (·.1 = name)).map Prod.snd := by
  have hkey (name : String) : ((fun m : List Char × Json ↦ decide (m.1 = name.toList)) ∘
      fun m : String × Json ↦ (m.1.toList, m.2)) = fun m ↦ decide (m.1 = name) :=
    funext fun m ↦ decide_eq_decide.mpr String.toList_inj
  have hcount (name : String) : members.countP (·.1 = name) ≤ 1 := by
    have h := List.nodup_iff_count_le_one.mp hnames name
    rwa [List.count, List.countP_map] at h
  have honce : (members.map Prod.fst).find? (fun name ↦ 1 < (members.map fun m ↦
      (m.1.toList, m.2)).countP (·.1 = name.toList)) = none := by
    refine List.find?_eq_none.mpr fun name _ ↦ ?_
    rw [List.countP_map, hkey, decide_eq_true_iff, Nat.not_lt]
    exact hcount name
  rw [readFields, honce]
  refine congrArg Except.ok (funext fun name ↦ ?_)
  rw [List.find?_map, hkey, Option.map_map]
  rfl

end

/-! ## What is read is inside -/

section

variable {α β : Type} {read read' : De α} {v : Json}

theorem lt_of_readNat {bound n : ℕ} (h : readNat bound v = .ok n) : n < bound := by
  cases v with
  | number l =>
    rw [readNat] at h
    split at h
    · next hl =>
      obtain rfl := Except.ok.inj h
      exact hl.2
    · exact absurd h error_ne_ok
  | null | bool | string | array | object => exact absurd h error_ne_ok

theorem depth_lt_of_readFields {names : List String} {values : String → Option Json}
    (h : readFields names v = .ok values) {name : String} {w : Json} (hw : values name = some w) :
    w.depth < v.depth := by
  cases v with
  | object members =>
    rw [readFields] at h
    split at h
    · exact absurd h error_ne_ok
    · obtain rfl := Except.ok.inj h
      obtain ⟨m, hm, rfl⟩ := Option.map_eq_some_iff.mp hw
      exact Json.depth_lt_object (List.mem_of_find?_eq_some hm)
  | array items =>
    rw [readFields] at h
    split at h
    · obtain rfl := Except.ok.inj h
      exact Json.depth_lt_array (List.mem_of_getElem? hw)
    · exact absurd h error_ne_ok
  | null | bool | number | string => exact absurd h error_ne_ok

theorem requiredField_eq_ok {values : String → Option Json} {name : String} {a : α} :
    requiredField read values name = .ok a ↔ ∃ w, values name = some w ∧ read w = .ok a := by
  cases h : values name <;> simp [requiredField, h]

theorem readItems_eq_ok {items : List Json} {l : List α} (h : readItems read items = .ok l) :
    ∀ a ∈ l, ∃ w ∈ items, read w = .ok a := by
  induction items generalizing l with
  | nil =>
    obtain rfl := Except.ok.inj h
    simp
  | cons w items ih =>
    simp only [readItems, bind_eq_ok] at h
    obtain ⟨a, ha, l', hl', hl⟩ := h
    obtain rfl := Except.ok.inj hl
    refine List.forall_mem_cons.mpr ⟨⟨w, List.mem_cons_self, ha⟩, fun b hb ↦ ?_⟩
    obtain ⟨u, hu, hread⟩ := ih hl' b hb
    exact ⟨u, List.mem_cons_of_mem _ hu, hread⟩

theorem readVec_eq_ok {l : List α} (h : readVec read v = .ok l) :
    ∀ a ∈ l, ∃ w, read w = .ok a := by
  cases v with
  | array items =>
    intro a ha
    obtain ⟨w, -, hw⟩ := readItems_eq_ok h a ha
    exact ⟨w, hw⟩
  | null | bool | number | string | object => exact absurd h error_ne_ok

theorem readItems_congr {items : List Json} (h : ∀ w ∈ items, read w = read' w) :
    readItems read items = readItems read' items := by
  induction items with
  | nil => rfl
  | cons w items ih =>
    obtain ⟨hw, hitems⟩ := List.forall_mem_cons.mp h
    rw [readItems, readItems, hw, ih hitems]

theorem readVec_congr (h : ∀ w, w.depth < v.depth → read w = read' w) :
    readVec read v = readVec read' v := by
  cases v with
  | array items => exact readItems_congr fun w hw ↦ h w (Json.depth_lt_array hw)
  | null | bool | number | string | object => rfl

theorem requiredField_congr {names : List String} {values : String → Option Json}
    (hvalues : readFields names v = .ok values) {name : String}
    (h : ∀ w, w.depth < v.depth → read w = read' w) :
    requiredField read values name = requiredField read' values name := by
  cases hw : values name with
  | none => rw [requiredField, requiredField, hw]
  | some w =>
    rw [requiredField, requiredField, hw]
    exact h w (depth_lt_of_readFields hvalues hw)

theorem readAdjacent_eq_ok {tag content : String} {variants : List (String × β)}
    {read : β → De α} {a : α} (h : readAdjacent tag content variants read v = .ok a) :
    ∃ variant w, read variant w = .ok a := by
  simp only [readAdjacent, bind_eq_ok, requiredField_eq_ok] at h
  obtain ⟨-, -, variant, -, w, -, hread⟩ := h
  exact ⟨variant, w, hread⟩

theorem readAdjacent_congr {tag content : String} {variants : List (String × β)}
    {read read' : β → De α}
    (h : ∀ variant w, w.depth < v.depth → read variant w = read' variant w) :
    readAdjacent tag content variants read v = readAdjacent tag content variants read' v := by
  rw [readAdjacent, readAdjacent]
  cases hvalues : readFields [tag, content] v with
  | error e => rfl
  | ok values =>
    rw [ok_bind, ok_bind]
    exact congrArg _ (funext fun variant ↦ requiredField_congr hvalues (h variant))

end

end Foundation.Serde
