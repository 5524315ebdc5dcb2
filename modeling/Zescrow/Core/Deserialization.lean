import Zescrow.Core.SavedFiles
import Zescrow.Foundation.Serde

/-!
# Reading saved values

Deserialization follows the attributes of the types, like serialization. Metadata are read back from
what they are written as, and so are conditions, whose thresholds are what a `usize` can hold.
-/

open Foundation Foundation.Serde

namespace Zescrow

/-! ## Identities, assets and metadata -/

/-- The variants in lower case, with their content. -/
def ID.fromJson : De ID :=
  readNewtypeVariant [("hex", fun v ↦ (readString v).map .hex),
    ("base58", fun v ↦ (readString v).map .base58),
    ("base64", fun v ↦ (readString v).map .base64),
    ("bytes", fun v ↦ (readByteBuf v).map .bytes)]

def Party.fromJson : De Party := fun v ↦ do
  let values ← readFields ["identity"] v
  let identity ← requiredField ID.fromJson values "identity"
  .ok ⟨identity⟩

def AssetKind.fromJson : De AssetKind := readUnitVariant [("native", .native), ("token", .token)]

def Chain.fromJson : De Chain :=
  readUnitVariant [("ethereum", .ethereum), ("solana", .solana)]

def ExecutionState.fromJson : De ExecutionState :=
  readUnitVariant [("Initialized", .initialized), ("Funded", .funded),
    ("ConditionsMet", .conditionsMet)]

def ChainConfig.fromJson : De ChainConfig := fun v ↦ do
  let values ← readFields ["chain", "rpc_url", "sender_private_id", "agent_id"] v
  let chain ← requiredField Chain.fromJson values "chain"
  let rpcUrl ← requiredField readString values "rpc_url"
  let senderPrivateId ← requiredField readString values "sender_private_id"
  let agentId ← requiredField readString values "agent_id"
  .ok ⟨chain, rpcUrl, senderPrivateId, agentId⟩

section

/- `BigUint::parse_bytes` in base 10. -/
variable (parseBytes : Str → Option ℕ)

/-- A number is read from a string. -/
def BigNumber.fromJson : De BigNumber := fun v ↦ do
  let s ← readString v
  (parseBytes s).elim (.error .invalidValue) .ok

def Asset.fromJson : De Asset := fun v ↦ do
  let values ← readFields ["kind", "agent_id", "amount", "decimals"] v
  let kind ← requiredField AssetKind.fromJson values "kind"
  let agentId ← optionalField ID.fromJson values "agent_id"
  let amount ← requiredField (BigNumber.fromJson parseBytes) values "amount"
  let decimals ← optionalField readU8 values "decimals"
  .ok ⟨kind, agentId, amount, decimals⟩

def EscrowParams.fromJson : De EscrowParams := fun v ↦ do
  let values ← readFields ["chain_config", "asset", "sender", "recipient", "finish_after",
    "cancel_after", "has_conditions"] v
  let chainConfig ← requiredField ChainConfig.fromJson values "chain_config"
  let asset ← requiredField (Asset.fromJson parseBytes) values "asset"
  let sender ← requiredField Party.fromJson values "sender"
  let recipient ← requiredField Party.fromJson values "recipient"
  let finishAfter ← optionalField readU64 values "finish_after"
  let cancelAfter ← optionalField readU64 values "cancel_after"
  let hasConditions ← requiredField readBool values "has_conditions"
  .ok ⟨chainConfig, asset, sender, recipient, finishAfter, cancelAfter, hasConditions⟩

def EscrowMetadata.fromJson : De EscrowMetadata := fun v ↦ do
  let values ← readFields ["params", "state", "escrow_id"] v
  let params ← requiredField (EscrowParams.fromJson parseBytes) values "params"
  let state ← requiredField ExecutionState.fromJson values "state"
  let escrowId ← optionalField readU64 values "escrow_id"
  .ok ⟨params, state, escrowId⟩

end

/-! ## Conditions -/

section

variable (C : Codecs)

/-- Bytes are read from a hex string. -/
def readHex : De Bytes := fun v ↦ do
  let s ← readString v
  (C.hexDecode s).mapError fun _ ↦ .invalidValue

/-- An array is read from a hex string of its length. -/
def readHexArray (n : ℕ) : De (FixedBytes n) := fun v ↦ do
  let bytes ← readHex C v
  (Reader.tryInto n bytes).elim (.error .invalidLength) .ok

/-- The preimage is read from a text. -/
def Hashlock.fromJson : De Hashlock := fun v ↦ do
  let values ← readFields ["hash", "preimage"] v
  let hash ← requiredField (readHexArray C 32) values "hash"
  let preimage ← requiredField readString values "preimage"
  .ok ⟨hash, Utf8.encode preimage⟩

def Ed25519.fromJson : De Ed25519 := fun v ↦ do
  let values ← readFields ["public_key", "signature", "message"] v
  let publicKey ← requiredField (readHexArray C 32) values "public_key"
  let signature ← requiredField (readHex C) values "signature"
  let message ← requiredField (readHex C) values "message"
  .ok ⟨publicKey, signature, message⟩

def Secp256k1.fromJson : De Secp256k1 := fun v ↦ do
  let values ← readFields ["public_key", "signature", "message"] v
  let publicKey ← requiredField (readHex C) values "public_key"
  let signature ← requiredField (readHex C) values "signature"
  let message ← requiredField (readHex C) values "message"
  .ok ⟨publicKey, signature, message⟩

/-- The variants of a condition. -/
inductive Condition.Variant where
  | hashlock
  | ed25519
  | secp256k1
  | threshold

def Condition.variants : List (String × Condition.Variant) :=
  [("hashlock", .hashlock), ("ed25519", .ed25519), ("secp256k1", .secp256k1),
    ("threshold", .threshold)]

/-- The values of a `usize`, on a machine with 64-bit pointers. -/
def usizeLimit : ℕ := 2 ^ 64

def Threshold.fromJson (read : De Condition) : De (ℕ × List Condition) := fun v ↦ do
  let values ← readFields ["threshold", "subconditions"] v
  let threshold ← requiredField (readNat usizeLimit) values "threshold"
  let subconditions ← requiredField (readVec read) values "subconditions"
  .ok (threshold, subconditions)

/-- The content of a variant, where subconditions are read with `read`. -/
def Condition.readContent (read : De Condition) : Condition.Variant → De Condition
  | .hashlock => fun v ↦ (Hashlock.fromJson C v).map .hashlock
  | .ed25519 => fun v ↦ (Ed25519.fromJson C v).map .ed25519
  | .secp256k1 => fun v ↦ (Secp256k1.fromJson C v).map .secp256k1
  | .threshold => fun v ↦ (Threshold.fromJson read v).map fun t ↦ .threshold t.1 t.2

/-- Reads a condition, with subconditions in at most `fuel` levels. -/
def Condition.readNested : ℕ → De Condition
  | 0 => fun _ ↦ .error .invalidValue
  | fuel + 1 => readAdjacent "condition" "fulfillment" Condition.variants
      (Condition.readContent C (Condition.readNested fuel))

/-- Reads a condition. Its levels are as many as the value is deep, at most. -/
def Condition.fromJson : De Condition := fun v ↦ Condition.readNested C (v.depth + 1) v

/-- More levels than that make no difference. -/
theorem Condition.readNested_eq {fuel : ℕ} {v : Json} (h : v.depth < fuel) :
    readNested C fuel v = fromJson C v := by
  have hstep (n m : ℕ) (v : Json) (hn : v.depth < n) (hm : v.depth < m) :
      readNested C n v = readNested C m v := by
    induction n generalizing m v with
    | zero => exact absurd hn (Nat.not_lt_zero _)
    | succ n ih =>
      obtain ⟨m, rfl⟩ := Nat.exists_eq_succ_of_ne_zero (Nat.ne_zero_of_lt hm)
      rw [readNested, readNested]
      refine readAdjacent_congr fun variant w hw ↦ ?_
      cases variant with
      | hashlock | ed25519 | secp256k1 => rfl
      | threshold =>
        refine congrArg (Except.map _) ?_
        rw [Threshold.fromJson, Threshold.fromJson]
        cases hvalues : readFields ["threshold", "subconditions"] w with
        | error e => rfl
        | ok values =>
          have hsub : requiredField (readVec (readNested C n)) values "subconditions" =
              requiredField (readVec (readNested C m)) values "subconditions" := by
            refine requiredField_congr hvalues fun u hu ↦ readVec_congr fun x hx ↦ ?_
            exact ih m x (by omega) (by omega)
          rw [ok_bind, ok_bind, hsub]
  exact hstep _ _ v h (Nat.lt_succ_self _)

end

/-! ## What was written is read -/

section

theorem readFields_jsonObject {names : List String} {members : List (String × Json)}
    (hnames : members.map Prod.fst = names) (hnodup : names.Nodup) :
    readFields names (jsonObject members) =
      .ok fun name ↦ (members.find? (·.1 = name)).map Prod.snd := by
  obtain rfl := hnames
  exact readFields_object hnodup

theorem readOption_jsonOption {α : Type} {read : De α} {toJson : α → Json}
    (h : ∀ a, read (toJson a) = .ok a) (hne : ∀ a, toJson a ≠ .null) (o : Option α) :
    readOption read (jsonOption toJson o) = .ok o := by
  cases o with
  | none => rfl
  | some a => exact readOption_of_ne_null (hne a) (h a)

@[simp] theorem readU8_jsonNat (n : UInt8) : readU8 (jsonNat n.toNat) = .ok n := readU8_ofNat n

@[simp] theorem readU64_jsonNat (n : UInt64) : readU64 (jsonNat n.toNat) = .ok n := readU64_ofNat n

@[simp] theorem readOption_readU64 (o : Option UInt64) :
    readOption readU64 (jsonOption (fun n ↦ jsonNat n.toNat) o) = .ok o :=
  readOption_jsonOption readU64_jsonNat (by simp [jsonNat]) o

@[simp] theorem ID.fromJson_toJson (id : ID) : ID.fromJson id.toJson = .ok id := by
  have hbytes (b : Bytes) : readItems readU8 (b.map fun x ↦ jsonNat x.toNat) = .ok b :=
    readItems_map fun x _ ↦ readU8_jsonNat x
  cases id <;> simp only [fromJson, toJson, jsonObject, List.map_cons, List.map_nil,
    readNewtypeVariant_object, findVariant_cons, String.reduceEq, if_true, if_false, ok_bind,
    readString, readByteBuf, hbytes, Except.map]

@[simp] theorem Party.fromJson_toJson (p : Party) : Party.fromJson p.toJson = .ok p := by
  simp [fromJson, toJson, readFields_jsonObject, requiredField]

@[simp] theorem AssetKind.fromJson_toJson (k : AssetKind) :
    AssetKind.fromJson k.toJson = .ok k := by
  cases k <;> simp only [fromJson, toJson, jsonString, readUnitVariant_string, findVariant_cons,
    String.reduceEq, if_true, if_false]

@[simp] theorem Chain.fromJson_toJson (c : Chain) : Chain.fromJson c.toJson = .ok c := by
  cases c <;> simp only [fromJson, toJson, jsonString, readUnitVariant_string, findVariant_cons,
    String.reduceEq, if_true, if_false]

@[simp] theorem ExecutionState.fromJson_toJson (s : ExecutionState) :
    ExecutionState.fromJson s.toJson = .ok s := by
  cases s <;> simp only [fromJson, toJson, jsonString, readUnitVariant_string, findVariant_cons,
    String.reduceEq, if_true, if_false]

@[simp] theorem ChainConfig.fromJson_toJson (c : ChainConfig) :
    ChainConfig.fromJson c.toJson = .ok c := by
  simp [fromJson, toJson, readFields_jsonObject, requiredField, readString]

variable {parseBytes : Str → Option ℕ} (hparse : ∀ n, parseBytes (Decimal.numeral n) = some n)

include hparse

theorem Asset.fromJson_toJson (a : Asset) : Asset.fromJson parseBytes a.toJson = .ok a := by
  have hid := readOption_jsonOption ID.fromJson_toJson
    (fun id ↦ by cases id <;> simp [ID.toJson, jsonObject]) a.agentId
  have hdecimals := readOption_jsonOption readU8_jsonNat (by simp [jsonNat]) a.decimals
  simp [fromJson, toJson, readFields_jsonObject, requiredField, optionalField, hid, hdecimals,
    BigNumber.fromJson, BigNumber.toJson, readString, hparse]

theorem EscrowParams.fromJson_toJson (p : EscrowParams) :
    EscrowParams.fromJson parseBytes p.toJson = .ok p := by
  simp [fromJson, toJson, readFields_jsonObject, requiredField, optionalField,
    Asset.fromJson_toJson hparse, readBool]

theorem EscrowMetadata.fromJson_toJson (m : EscrowMetadata) :
    EscrowMetadata.fromJson parseBytes m.toJson = .ok m := by
  simp [fromJson, toJson, readFields_jsonObject, requiredField, optionalField,
    EscrowParams.fromJson_toJson hparse]

end

/-- Every threshold of the tree is a `usize`. -/
inductive Condition.UsizeThresholds : Condition → Prop
  | hashlock (h : Hashlock) : UsizeThresholds (.hashlock h)
  | ed25519 (e : Ed25519) : UsizeThresholds (.ed25519 e)
  | secp256k1 (s : Secp256k1) : UsizeThresholds (.secp256k1 s)
  | threshold {required : ℕ} {subconditions : List Condition} (hrequired : required < usizeLimit)
      (hsub : ∀ c ∈ subconditions, UsizeThresholds c) :
      UsizeThresholds (.threshold required subconditions)

section

variable {C : Codecs} (hC : C.Standard)

include hC

theorem readHex_hexJson (b : Bytes) : readHex C (hexJson C b) = .ok b := by
  have hdecode : C.hexDecode (C.hexEncode b) = .ok b :=
    (hC.hexDecode _ _).mpr (hC.hexEncode b ▸ Hex.map_toLower_encode b)
  rw [readHex, hexJson, readString, ok_bind, hdecode]
  rfl

theorem readHexArray_hexJson {n : ℕ} (b : FixedBytes n) :
    readHexArray C n (hexJson C b.1) = .ok b := by
  have hfixed : Reader.tryInto n b.1 = some b := tryInto_eq_some.mpr rfl
  rw [readHexArray, readHex_hexJson hC, ok_bind, hfixed]
  rfl

theorem Hashlock.fromJson_toJson {h : Hashlock} {j : Json} (hj : h.toJson C = .ok j) :
    Hashlock.fromJson C j = .ok h := by
  simp only [toJson, bind_eq_ok, elim_eq_ok] at hj
  obtain ⟨preimage, hpreimage, hj⟩ := hj
  obtain rfl := Except.ok.inj hj
  have hencode : h.preimage = Utf8.encode preimage := Utf8.decode_eq_some.mp hpreimage
  simp [fromJson, readFields_jsonObject, requiredField, readHexArray_hexJson hC, readString,
    ← hencode]

theorem Ed25519.fromJson_toJson (e : Ed25519) : Ed25519.fromJson C (e.toJson C) = .ok e := by
  simp [fromJson, toJson, readFields_jsonObject, requiredField, readHexArray_hexJson hC,
    readHex_hexJson hC]

theorem Secp256k1.fromJson_toJson (s : Secp256k1) :
    Secp256k1.fromJson C (s.toJson C) = .ok s := by
  simp [fromJson, toJson, readFields_jsonObject, requiredField, readHex_hexJson hC]

end

theorem readAdjacent_taggedJson {variant : Condition.Variant} {name : String} {w : Json}
    {read : Condition.Variant → De Condition}
    (h : findVariant Condition.variants name.toList = .ok variant) :
    readAdjacent "condition" "fulfillment" Condition.variants read (taggedJson name w) =
      read variant w := by
  simp [readAdjacent, taggedJson, readFields_jsonObject, requiredField, jsonString,
    readUnitVariant_string, h]

theorem depth_taggedJson (name : String) (w : Json) :
    (taggedJson name w).depth = w.depth + 1 := by
  simp [taggedJson, jsonObject, jsonString, Json.depth, Json.depthMembers]

theorem depth_thresholdJson (required : ℕ) (items : List Json) :
    (taggedJson "threshold" (jsonObject [("threshold", jsonNat required),
      ("subconditions", .array items)])).depth = Json.depthItems items + 3 := by
  rw [depth_taggedJson]
  simp [jsonObject, jsonNat, Json.depth, Json.depthMembers]

/-! ## Conditions that can be read -/

theorem Condition.readItems_toJsons {C : Codecs} {read : De Condition} {cs : List Condition}
    {items : List Json} (hitems : toJsons C cs = .ok items)
    (h : ∀ c ∈ cs, ∀ j ∈ items, c.toJson C = .ok j → read j = .ok c) :
    readItems read items = .ok cs := by
  induction cs generalizing items with
  | nil =>
    obtain rfl := Except.ok.inj hitems
    rfl
  | cons c cs ih =>
    simp only [toJsons, bind_eq_ok] at hitems
    obtain ⟨item, hitem, items', hitems', hcons⟩ := hitems
    obtain rfl := Except.ok.inj hcons
    have hread : read item = .ok c := h c List.mem_cons_self item List.mem_cons_self hitem
    have hrest : readItems read items' = .ok cs := ih hitems' fun d hd j hj ↦
      h d (List.mem_cons_of_mem _ hd) j (List.mem_cons_of_mem _ hj)
    rw [readItems, hread, ok_bind, hrest, ok_bind]

theorem Condition.exists_toJsons {C : Codecs} {cs : List Condition}
    (h : ∀ c ∈ cs, ∃ j, c.toJson C = .ok j) : ∃ js, toJsons C cs = .ok js := by
  induction cs with
  | nil => exact ⟨[], rfl⟩
  | cons c cs ih =>
    obtain ⟨⟨j, hj⟩, hcs⟩ := List.forall_mem_cons.mp h
    obtain ⟨js, hjs⟩ := ih hcs
    refine ⟨j :: js, ?_⟩
    rw [toJsons, hj, ok_bind, hjs, ok_bind]

theorem Condition.readNested_toJson {C : Codecs} (hC : C.Standard) {fuel : ℕ} {c : Condition}
    {j : Json} (hc : c.UsizeThresholds) (hj : c.toJson C = .ok j) (hfuel : j.depth < fuel) :
    readNested C fuel j = .ok c := by
  induction c generalizing fuel j with
  | hashlock l =>
    obtain ⟨fuel, rfl⟩ := Nat.exists_eq_succ_of_ne_zero (Nat.ne_zero_of_lt hfuel)
    have hvariant : findVariant variants "hashlock".toList = .ok .hashlock := by
      simp only [variants, findVariant_cons, String.reduceEq, if_true, if_false]
    simp only [toJson, bind_eq_ok] at hj
    obtain ⟨w, hw, hj⟩ := hj
    obtain rfl := Except.ok.inj hj
    rw [readNested, readAdjacent_taggedJson hvariant, readContent]
    exact congrArg (Except.map _) (Hashlock.fromJson_toJson hC hw)
  | ed25519 e =>
    obtain ⟨fuel, rfl⟩ := Nat.exists_eq_succ_of_ne_zero (Nat.ne_zero_of_lt hfuel)
    have hvariant : findVariant variants "ed25519".toList = .ok .ed25519 := by
      simp only [variants, findVariant_cons, String.reduceEq, if_true, if_false]
    obtain rfl := Except.ok.inj hj
    rw [readNested, readAdjacent_taggedJson hvariant, readContent]
    exact congrArg (Except.map _) (Ed25519.fromJson_toJson hC e)
  | secp256k1 s =>
    obtain ⟨fuel, rfl⟩ := Nat.exists_eq_succ_of_ne_zero (Nat.ne_zero_of_lt hfuel)
    have hvariant : findVariant variants "secp256k1".toList = .ok .secp256k1 := by
      simp only [variants, findVariant_cons, String.reduceEq, if_true, if_false]
    obtain rfl := Except.ok.inj hj
    rw [readNested, readAdjacent_taggedJson hvariant, readContent]
    exact congrArg (Except.map _) (Secp256k1.fromJson_toJson hC s)
  | threshold required cs ih =>
    obtain ⟨fuel, rfl⟩ := Nat.exists_eq_succ_of_ne_zero (Nat.ne_zero_of_lt hfuel)
    have hvariant : findVariant variants "threshold".toList = .ok .threshold := by
      simp only [variants, findVariant_cons, String.reduceEq, if_true, if_false]
    cases hc with
    | threshold hrequired hsub =>
      simp only [toJson, bind_eq_ok] at hj
      obtain ⟨items, hitems, hj⟩ := hj
      obtain rfl := Except.ok.inj hj
      have hread : readItems (readNested C fuel) items = .ok cs := by
        refine readItems_toJsons hitems fun c hc j hmem hj ↦ ih c hc (hsub c hc) hj ?_
        have hle : j.depth ≤ Json.depthItems items := Json.depthItems_le_iff.mp le_rfl j hmem
        rw [depth_thresholdJson] at hfuel
        omega
      have hrequired' : readNat usizeLimit (jsonNat required) = .ok required :=
        readNat_ofNat hrequired
      rw [readNested, readAdjacent_taggedJson hvariant, readContent]
      simp [Threshold.fromJson, readFields_jsonObject, requiredField, hrequired', readVec, hread,
        Except.map]

theorem Condition.of_readNested {C : Codecs} {fuel : ℕ} {v : Json} {c : Condition}
    (h : readNested C fuel v = .ok c) : c.UsizeThresholds ∧ ∃ j, c.toJson C = .ok j := by
  induction fuel generalizing v c with
  | zero => exact absurd h error_ne_ok
  | succ fuel ih =>
    obtain ⟨variant, w, hread⟩ := readAdjacent_eq_ok h
    cases variant with
    | hashlock =>
      obtain ⟨l, hl, rfl⟩ := map_eq_ok.mp hread
      simp only [Hashlock.fromJson, bind_eq_ok] at hl
      obtain ⟨-, -, hash, -, preimage, -, hl⟩ := hl
      obtain rfl := Except.ok.inj hl
      refine ⟨.hashlock _, ?_⟩
      rw [toJson, Hashlock.toJson, Utf8.decode_eq_some.mpr rfl]
      exact ⟨_, rfl⟩
    | ed25519 =>
      obtain ⟨e, -, rfl⟩ := map_eq_ok.mp hread
      exact ⟨.ed25519 e, _, rfl⟩
    | secp256k1 =>
      obtain ⟨s, -, rfl⟩ := map_eq_ok.mp hread
      exact ⟨.secp256k1 s, _, rfl⟩
    | threshold =>
      obtain ⟨⟨required, cs⟩, ht, rfl⟩ := map_eq_ok.mp hread
      simp only [Threshold.fromJson, bind_eq_ok, requiredField_eq_ok] at ht
      obtain ⟨-, -, required', ⟨n, -, hn⟩, cs', ⟨items, -, hitems⟩, ht⟩ := ht
      obtain ⟨rfl, rfl⟩ := Prod.mk.inj (Except.ok.inj ht)
      have hcs : ∀ c ∈ cs', c.UsizeThresholds ∧ ∃ j, c.toJson C = .ok j := by
        intro c hc
        obtain ⟨w, hw⟩ := readVec_eq_ok hitems c hc
        exact ih hw
      obtain ⟨js, hjs⟩ := exists_toJsons fun c hc ↦ (hcs c hc).2
      refine ⟨.threshold (lt_of_readNat hn) fun c hc ↦ (hcs c hc).1, ?_⟩
      rw [toJson, hjs]
      exact ⟨_, rfl⟩

theorem Condition.fromJson_toJson {C : Codecs} (hC : C.Standard) {c : Condition} {j : Json}
    (hc : c.UsizeThresholds) (hj : c.toJson C = .ok j) : fromJson C j = .ok c :=
  readNested_toJson hC hc hj (Nat.lt_succ_self _)

/-- **What is written as JSON is read back, and nothing else is read.** Metadata and conditions are
read from the JSON they are written as, and whatever a condition is read from, it can be written. -/
theorem json_round_trip {C : Codecs} (hC : C.Standard) {parseBytes : Str → Option ℕ}
    (hparse : ∀ n, parseBytes (Decimal.numeral n) = some n) :
    (∀ m : EscrowMetadata, EscrowMetadata.fromJson parseBytes m.toJson = .ok m) ∧
    ∀ c : Condition,
      ((∃ v, Condition.fromJson C v = .ok c) ↔ c.UsizeThresholds ∧ ∃ j, c.toJson C = .ok j) ∧
      ∀ j, c.UsizeThresholds → c.toJson C = .ok j → Condition.fromJson C j = .ok c := by
  refine ⟨EscrowMetadata.fromJson_toJson hparse, fun c ↦ ⟨⟨?_, ?_⟩, fun j hc hj ↦ ?_⟩⟩
  · rintro ⟨v, hv⟩
    exact Condition.of_readNested hv
  · rintro ⟨hc, j, hj⟩
    exact ⟨j, Condition.fromJson_toJson hC hc hj⟩
  · exact Condition.fromJson_toJson hC hc hj

/-- Reads decimal numerals. -/
def parseDecimal (s : Str) : Option ℕ :=
  if Decimal.IsNumeral s then some (Decimal.value s) else none

theorem parseDecimal_numeral (n : ℕ) : parseDecimal (Decimal.numeral n) = some n := by
  rw [parseDecimal, if_pos (Decimal.isNumeral_numeral n), Decimal.value_numeral]

/-- A threshold over a hashlock. -/
def Condition.nestedSample (secret : Str) : Condition := .threshold 1 [.secretSample secret]

theorem Condition.usizeThresholds_nestedSample (secret : Str) :
    (nestedSample secret).UsizeThresholds := by
  refine .threshold (by decide) fun c hc ↦ ?_
  obtain rfl := List.mem_singleton.mp hc
  exact .hashlock _

theorem Condition.toJson_nestedSample (secret : Str) :
    ∃ j, (nestedSample secret).toJson .sample = .ok j := by
  rw [nestedSample, secretSample, toJson, toJsons, toJson, Hashlock.toJson,
    Utf8.decode_eq_some.mpr rfl]
  exact ⟨_, rfl⟩

theorem json_round_trip_sample :
    EscrowMetadata.fromJson parseDecimal (EscrowMetadata.sample ['u']).toJson
      = .ok (.sample ['u']) ∧
    (∃ v, Condition.fromJson .sample v = .ok (.nestedSample ['s'])) ∧
    ∃ j, (Condition.nestedSample ['s']).toJson .sample = .ok j ∧
      Condition.fromJson .sample j = .ok (.nestedSample ['s']) := by
  obtain ⟨hmetadata, hcondition⟩ := json_round_trip Codecs.standard_sample parseDecimal_numeral
  obtain ⟨hread, hwritten⟩ := hcondition (.nestedSample ['s'])
  have husize := Condition.usizeThresholds_nestedSample ['s']
  obtain ⟨j, hj⟩ := Condition.toJson_nestedSample ['s']
  exact ⟨hmetadata _, hread.mpr ⟨husize, j, hj⟩, j, hj, hwritten j husize hj⟩

end Zescrow
