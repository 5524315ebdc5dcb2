import Zescrow.Core.IdentityText
import Zescrow.Core.Interface
import Zescrow.Foundation.Json

/-!
# Saving and loading

The client saves what it will load again: the metadata of a created escrow and generated conditions.
`save_escrow_data` prints the value as JSON, and `load_escrow_data` expands references in the text
before it parses it. A string is printed with its `$` and braces as they are, so one that looks like
a reference is read as one.

Serialization follows the attributes of the types; the JSON printer and parser are parameters.
-/

open Foundation

namespace Zescrow

/-! ## Serialization -/

/-- An object with these members. -/
def jsonObject (members : List (String × Json)) : Json :=
  .object (members.map fun m ↦ (m.1.toList, m.2))

def jsonString (s : String) : Json := .string s.toList

def jsonNat (n : ℕ) : Json := .number (.ofNat n)

def jsonOption {α : Type} (toJson : α → Json) : Option α → Json
  | none => .null
  | some a => toJson a

/-- A number is a string of digits. -/
def BigNumber.toJson (n : BigNumber) : Json := .string (Decimal.numeral n)

/-- The variants in lower case, with their content. -/
def ID.toJson : ID → Json
  | .hex s => jsonObject [("hex", .string s)]
  | .base58 s => jsonObject [("base58", .string s)]
  | .base64 s => jsonObject [("base64", .string s)]
  | .bytes b => jsonObject [("bytes", .array (b.map fun x ↦ jsonNat x.toNat))]

def Party.toJson (p : Party) : Json := jsonObject [("identity", p.identity.toJson)]

def AssetKind.toJson : AssetKind → Json
  | .native => jsonString "native"
  | .token => jsonString "token"

def Asset.toJson (a : Asset) : Json :=
  jsonObject [("kind", a.kind.toJson), ("agent_id", jsonOption ID.toJson a.agentId),
    ("amount", BigNumber.toJson a.amount),
    ("decimals", jsonOption (fun d ↦ jsonNat d.toNat) a.decimals)]

def Chain.toJson : Chain → Json
  | .ethereum => jsonString "ethereum"
  | .solana => jsonString "solana"

def ChainConfig.toJson (c : ChainConfig) : Json :=
  jsonObject [("chain", c.chain.toJson), ("rpc_url", .string c.rpcUrl),
    ("sender_private_id", .string c.senderPrivateId), ("agent_id", .string c.agentId)]

def EscrowParams.toJson (p : EscrowParams) : Json :=
  jsonObject [("chain_config", p.chainConfig.toJson), ("asset", p.asset.toJson),
    ("sender", p.sender.toJson), ("recipient", p.recipient.toJson),
    ("finish_after", jsonOption (fun h ↦ jsonNat h.toNat) p.finishAfter),
    ("cancel_after", jsonOption (fun h ↦ jsonNat h.toNat) p.cancelAfter),
    ("has_conditions", .bool p.hasConditions)]

def ExecutionState.toJson : ExecutionState → Json
  | .initialized => jsonString "Initialized"
  | .funded => jsonString "Funded"
  | .conditionsMet => jsonString "ConditionsMet"

def EscrowMetadata.toJson (m : EscrowMetadata) : Json :=
  jsonObject [("params", m.params.toJson), ("state", m.state.toJson),
    ("escrow_id", jsonOption (fun i ↦ jsonNat i.toNat) m.escrowId)]

section

variable (C : Codecs)

/-- Bytes as a hex string. -/
def hexJson (b : Bytes) : Json := .string (C.hexEncode b)

/-- The preimage is a text, and cannot be serialized when it is not UTF-8. -/
def Hashlock.toJson (h : Hashlock) : Except String Json := do
  let preimage ← (Utf8.decode h.preimage).elim (.error "invalid UTF-8") .ok
  .ok (jsonObject [("hash", hexJson C h.hash.1), ("preimage", .string preimage)])

def Ed25519.toJson (e : Ed25519) : Json :=
  jsonObject [("public_key", hexJson C e.publicKey.1), ("signature", hexJson C e.signature),
    ("message", hexJson C e.message)]

def Secp256k1.toJson (s : Secp256k1) : Json :=
  jsonObject [("public_key", hexJson C s.publicKey), ("signature", hexJson C s.signature),
    ("message", hexJson C s.message)]

/-- The variant beside its content. -/
def taggedJson (condition : String) (fulfillment : Json) : Json :=
  jsonObject [("condition", jsonString condition), ("fulfillment", fulfillment)]

mutual

def Condition.toJson : Condition → Except String Json
  | .hashlock h => do
    let fulfillment ← h.toJson C
    .ok (taggedJson "hashlock" fulfillment)
  | .ed25519 e => .ok (taggedJson "ed25519" (e.toJson C))
  | .secp256k1 s => .ok (taggedJson "secp256k1" (s.toJson C))
  | .threshold required subconditions => do
    let items ← Condition.toJsons subconditions
    .ok (taggedJson "threshold"
      (jsonObject [("threshold", jsonNat required), ("subconditions", .array items)]))

def Condition.toJsons : List Condition → Except String (List Json)
  | [] => .ok []
  | c :: cs => do
    let item ← Condition.toJson c
    let items ← Condition.toJsons cs
    .ok (item :: items)

end

end

/-! ## Saving -/

/-- `serde_json`: its printer, and its parser of a type. -/
structure SerdeJson (β : Type) where
  toStringPretty : Json → Str
  fromStr : Str → Except String β

/-- What a command can do to a file: create it empty, and write a text to it. -/
structure FileWriter where
  create : Str → Except String Unit
  write : Str → Str → Except String Unit

/-- Errors from saving a file. -/
inductive SaveError where
  | creating (path : Str) (e : String)
  | serializing (path : Str) (e : String)
  deriving DecidableEq

/-- Writes `data` as pretty-printed JSON to the given `path`. The result is the process in which the
file reads as that text; what a failure leaves in the file is not looked at. -/
def saveEscrowData {β : Type} (P : Process) (W : FileWriter) (J : SerdeJson β)
    (toJson : β → Except String Json) (path : Str) (data : β) : Except SaveError Process := do
  (W.create path).mapError (.creating path)
  let json ← (toJson data).mapError (.serializing path)
  (W.write path (J.toStringPretty json)).mapError (.serializing path)
  .ok { P with readToString := Function.update P.readToString path (.ok (J.toStringPretty json)) }

/-! ## The string fields -/

/-- The text of an identity that is stored as one. -/
def ID.texts : ID → List Str
  | .hex s => [s]
  | .base58 s => [s]
  | .base64 s => [s]
  | .bytes _ => []

/-- The strings that metadata hold. -/
def EscrowMetadata.texts (m : EscrowMetadata) : List Str :=
  [m.params.chainConfig.rpcUrl, m.params.chainConfig.senderPrivateId,
    m.params.chainConfig.agentId] ++ (m.params.asset.agentId.elim [] ID.texts ++
      (m.params.sender.identity.texts ++ m.params.recipient.identity.texts))

mutual

/-- The preimages of a condition, as texts. -/
def Condition.texts : Condition → List Str
  | .hashlock h => (Utf8.decode h.preimage).toList
  | .ed25519 _ => []
  | .secp256k1 _ => []
  | .threshold _ subconditions => Condition.allTexts subconditions

def Condition.allTexts : List Condition → List Str
  | [] => []
  | c :: cs => c.texts ++ Condition.allTexts cs

end

/-! ## References in serialized values -/

/-- Nothing in `s` looks like the start of a reference. -/
abbrev NoReference (s : Str) : Prop := ¬['$', '{'] <:+: s

theorem noReference_of_not_mem {s : Str} (h : '$' ∉ s) : NoReference s := by
  rintro ⟨a, b, rfl⟩
  exact h (by simp)

theorem NoReference.of_subset {s l : Str} (hs : ∀ c ∈ s, c ∈ l) (hl : '$' ∉ l) : NoReference s :=
  noReference_of_not_mem fun h ↦ hl (hs _ h)

section

variable {P : Str → Prop}

@[simp] theorem all_string (s : Str) : (Json.string s).All P ↔ P s := Iff.rfl

@[simp] theorem all_array (items : List Json) :
    (Json.array items).All P ↔ ∀ v ∈ items, v.All P := Json.allItems_iff

@[simp] theorem all_jsonNat (n : ℕ) : (jsonNat n).All P := trivial

@[simp] theorem all_bool (b : Bool) : (Json.bool b).All P := trivial

@[simp] theorem all_jsonOption_nat {α : Type} (f : α → ℕ) (o : Option α) :
    (jsonOption (fun a ↦ jsonNat (f a)) o).All P := by
  cases o <;> trivial

theorem all_jsonObject {members : List (String × Json)}
    (hkeys : ∀ m ∈ members, '$' ∉ m.1.toList) :
    (jsonObject members).All NoReference ↔ ∀ m ∈ members, m.2.All NoReference := by
  change Json.AllMembers NoReference _ ↔ _
  induction members with
  | nil => simp [Json.AllMembers]
  | cons m members ih =>
    obtain ⟨hkey, hkeys⟩ := List.forall_mem_cons.mp hkeys
    rw [List.map_cons, Json.AllMembers, ih hkeys, and_iff_right (noReference_of_not_mem hkey),
      List.forall_mem_cons]

end

@[simp] theorem AssetKind.all_toJson (k : AssetKind) : k.toJson.All NoReference := by
  cases k <;> exact noReference_of_not_mem (by decide)

@[simp] theorem Chain.all_toJson (c : Chain) : c.toJson.All NoReference := by
  cases c <;> exact noReference_of_not_mem (by decide)

@[simp] theorem ExecutionState.all_toJson (s : ExecutionState) : s.toJson.All NoReference := by
  cases s <;> exact noReference_of_not_mem (by decide)

@[simp] theorem BigNumber.all_toJson (n : BigNumber) : (BigNumber.toJson n).All NoReference :=
  NoReference.of_subset (Decimal.isDigits_numeral n) (by decide)

theorem hexJson_all {C : Codecs} (hC : C.Standard) (b : Bytes) :
    (hexJson C b).All NoReference := by
  rw [hexJson, hC.hexEncode]
  exact NoReference.of_subset (fun c ↦ Hex.mem_alphabet) (by decide)

theorem ID.all_toJson (id : ID) : id.toJson.All NoReference ↔ ∀ s ∈ id.texts, NoReference s := by
  cases id <;> rw [toJson, all_jsonObject (by simp)] <;> simp [texts]

theorem Party.all_toJson (p : Party) :
    p.toJson.All NoReference ↔ ∀ s ∈ p.identity.texts, NoReference s := by
  rw [toJson, all_jsonObject (by simp), List.forall_mem_singleton, ID.all_toJson]

theorem Asset.all_toJson (a : Asset) :
    a.toJson.All NoReference ↔ ∀ s ∈ a.agentId.elim [] ID.texts, NoReference s := by
  have hid : (jsonOption ID.toJson a.agentId).All NoReference ↔
      ∀ s ∈ a.agentId.elim [] ID.texts, NoReference s := by
    cases a.agentId with
    | none => simp [jsonOption, Json.All]
    | some id => exact id.all_toJson
  rw [toJson, all_jsonObject (by simp)]
  simp [hid]

theorem ChainConfig.all_toJson (c : ChainConfig) : c.toJson.All NoReference ↔
    ∀ s ∈ [c.rpcUrl, c.senderPrivateId, c.agentId], NoReference s := by
  rw [toJson, all_jsonObject (by simp)]
  simp

theorem EscrowMetadata.all_toJson (m : EscrowMetadata) :
    m.toJson.All NoReference ↔ ∀ s ∈ m.texts, NoReference s := by
  have hparams : m.params.toJson.All NoReference ↔ ∀ s ∈ m.texts, NoReference s := by
    rw [EscrowParams.toJson, all_jsonObject (by simp)]
    simp only [List.forall_mem_cons, ChainConfig.all_toJson, Asset.all_toJson, Party.all_toJson,
      all_jsonOption_nat, all_bool, texts, List.forall_mem_append, List.not_mem_nil,
      IsEmpty.forall_iff, implies_true, and_true]
  rw [toJson, all_jsonObject (by simp)]
  simp [hparams]

theorem Condition.all_toJson {C : Codecs} (hC : C.Standard) {c : Condition} {j : Json}
    (h : c.toJson C = .ok j) : j.All NoReference ↔ ∀ s ∈ c.texts, NoReference s := by
  have htag {condition : String} {fulfillment : Json}
      (hname : '$' ∉ condition.toList) :
      (taggedJson condition fulfillment).All NoReference ↔ fulfillment.All NoReference := by
    rw [taggedJson, all_jsonObject (by simp)]
    simpa [jsonString] using fun _ ↦ noReference_of_not_mem hname
  induction c generalizing j with
  | hashlock l =>
    simp only [toJson, Hashlock.toJson, bind_eq_ok, elim_eq_ok] at h
    obtain ⟨_, ⟨preimage, hpreimage, hl⟩, hj⟩ := h
    obtain rfl := Except.ok.inj hl
    obtain rfl := Except.ok.inj hj
    rw [htag (by decide), all_jsonObject (by simp), texts, hpreimage]
    simp [hexJson_all hC]
  | ed25519 e =>
    obtain rfl := Except.ok.inj h
    rw [htag (by decide), Ed25519.toJson, all_jsonObject (by simp), texts]
    simp [hexJson_all hC]
  | secp256k1 s =>
    obtain rfl := Except.ok.inj h
    rw [htag (by decide), Secp256k1.toJson, all_jsonObject (by simp), texts]
    simp [hexJson_all hC]
  | threshold required cs ih =>
    have hitems : ∀ (cs' : List Condition) (items : List Json), cs' ⊆ cs →
        toJsons C cs' = .ok items →
        ((∀ v ∈ items, v.All NoReference) ↔ ∀ s ∈ allTexts cs', NoReference s) := by
      intro cs' items hsub hitems
      induction cs' generalizing items with
      | nil =>
        obtain rfl := Except.ok.inj hitems
        simp [allTexts]
      | cons c cs' ihcs =>
        simp only [toJsons, bind_eq_ok] at hitems
        obtain ⟨item, hitem, items', hitems', hcons⟩ := hitems
        obtain rfl := Except.ok.inj hcons
        have hc : item.All NoReference ↔ ∀ s ∈ c.texts, NoReference s :=
          ih c (hsub List.mem_cons_self) hitem
        have hcs := ihcs items' (fun _ hc ↦ hsub (List.mem_cons_of_mem _ hc)) hitems'
        rw [List.forall_mem_cons, hc, hcs, allTexts, List.forall_mem_append]
    simp only [toJson, bind_eq_ok] at h
    obtain ⟨items, hjsons, hj⟩ := h
    obtain rfl := Except.ok.inj hj
    rw [htag (by decide), all_jsonObject (by simp), texts]
    simp [hitems cs items (List.Subset.refl _) hjsons]

/-! ## What is loaded -/

/-- A text that ends with a brace closes every reference it opens. -/
theorem template_names_ne_nil {s : Str} (h : ['$', '{'] <:+: s) (hlast : s.getLast? = some '}') :
    (template s).names ≠ [] := by
  cases hopen : splitOnce ['$', '{'] s with
  | none => exact absurd h (splitOnce_eq_none.mp hopen)
  | some p =>
    obtain ⟨before, behind⟩ := p
    have hs := splitOnce_eq_some hopen
    have hbrace : ['}'] <:+: behind := by
      rw [hs, List.getLast?_append, List.getLast?_append] at hlast
      cases hbehind : behind.getLast? with
      | none =>
        rw [hbehind] at hlast
        have hlast' : some '{' = some '}' := hlast
        exact absurd hlast' (by decide)
      | some c =>
        rw [hbehind] at hlast
        obtain rfl := Option.some.inj hlast
        obtain ⟨l, rfl⟩ := List.getLast?_eq_some_iff.mp hbehind
        exact ⟨l, [], List.append_nil _⟩
    cases hclose : splitOnce ['}'] behind with
    | none => exact absurd hbrace (splitOnce_eq_none.mp hclose)
    | some q =>
      obtain ⟨name, rest⟩ := q
      rw [template, Template.parse_of_ref hopen hclose, Template.names]
      exact List.cons_ne_nil _ _

theorem expandEnvChecked_of_noReference {P : Process} {s : Str} (h : NoReference s) :
    expandEnvChecked P s = .ok s := by
  refine expandEnvChecked_eq_self fun name hname ↦ ?_
  rw [template, Template.parse_of_no_opening (splitOnce_eq_none.mpr h)] at hname
  exact absurd hname List.not_mem_nil

/-- The characters that are printed as they are. -/
def verbatim : List Char := ['$', '{', '}']

theorem inner_verbatim : Json.Inner verbatim '$' '{' where
  left := by decide
  right := by decide
  outside := by decide
  outside_word := by decide
  outside_number := by decide
  right_ne := by decide

/-- For the value `v`, parsing inverts printing, and what is printed is JSON with the characters of
references as they are. -/
structure SerdeJson.Inverts {β : Type} (J : SerdeJson β) (toJson : β → Except String Json) (v : β) :
    Prop where
  text : ∀ j, toJson v = .ok j → j.Text verbatim (J.toStringPretty j)
  parse : ∀ j, toJson v = .ok j → J.fromStr (J.toStringPretty j) = .ok v

theorem saveEscrowData_eq_ok {β : Type} {P P' : Process} {W : FileWriter} {J : SerdeJson β}
    {toJson : β → Except String Json} {path : Str} {v : β}
    (h : saveEscrowData P W J toJson path v = .ok P') :
    ∃ j, toJson v = .ok j ∧ P'.readToString path = .ok (J.toStringPretty j) := by
  simp only [saveEscrowData, bind_eq_ok, mapError_eq_ok] at h
  obtain ⟨-, -, j, hj, -, -, hP⟩ := h
  obtain rfl := Except.ok.inj hP
  exact ⟨j, hj, Function.update_self _ _ _⟩

/-- A saved value is loaded again if nothing in its text looks like a reference, and otherwise not
everywhere: where no variable is set it is not loaded at all. -/
theorem load_saved_iff {β : Type} {P P' : Process} {W : FileWriter} {J : SerdeJson β}
    {toJson : β → Except String Json} {path : Str} {v : β} (hJ : J.Inverts toJson v)
    (hobject : ∀ j, toJson v = .ok j → ∃ members, j = .object members)
    (hsave : saveEscrowData P W J toJson path v = .ok P') :
    (∀ envVar, loadEscrowData { P' with envVar := envVar } J.fromStr path = .ok v) ↔
      ∀ j, toJson v = .ok j → j.All NoReference := by
  obtain ⟨j, hj, hread⟩ := saveEscrowData_eq_ok hsave
  have htext := hJ.text j hj
  have hall :
      (∀ j', toJson v = .ok j' → j'.All NoReference) ↔ NoReference (J.toStringPretty j) := by
    have hpair : NoReference (J.toStringPretty j) ↔ j.All NoReference :=
      htext.avoids_iff inner_verbatim
    rw [hpair]
    refine ⟨fun h ↦ h j hj, fun h j' hj' ↦ ?_⟩
    obtain rfl := Except.ok.inj (hj.symm.trans hj')
    exact h
  rw [hall]
  constructor
  · intro hload href
    obtain ⟨content, expanded, hcontent, hexpand, -⟩ := loadEscrowData_eq_ok.mp (hload fun _ ↦ none)
    obtain rfl := Except.ok.inj (hread.symm.trans hcontent)
    obtain ⟨members, rfl⟩ := hobject j hj
    have hnames := template_names_ne_nil href htext.getLast?_object
    obtain ⟨name, hname⟩ := List.exists_mem_of_ne_nil _ hnames
    exact (expandEnvChecked_eq_ok.mp hexpand).1 name hname rfl
  · intro h envVar
    exact loadEscrowData_eq_ok.mpr ⟨_, _, hread, expandEnvChecked_of_noReference h, hJ.parse j hj⟩

theorem Condition.toJson_object {C : Codecs} {c : Condition} {j : Json}
    (h : c.toJson C = .ok j) : ∃ members, j = .object members := by
  cases c with
  | hashlock l =>
    simp only [toJson, bind_eq_ok] at h
    obtain ⟨_, -, hj⟩ := h
    exact ⟨_, (Except.ok.inj hj).symm⟩
  | ed25519 e => exact ⟨_, (Except.ok.inj h).symm⟩
  | secp256k1 s => exact ⟨_, (Except.ok.inj h).symm⟩
  | threshold required cs =>
    simp only [toJson, bind_eq_ok] at h
    obtain ⟨_, -, hj⟩ := h
    exact ⟨_, (Except.ok.inj hj).symm⟩

theorem EscrowMetadata.load_saved_iff {P P' : Process} {W : FileWriter}
    {J : SerdeJson EscrowMetadata} {path : Str} {m : EscrowMetadata}
    (hJ : J.Inverts (fun m ↦ .ok m.toJson) m)
    (hsave : saveEscrowData P W J (fun m ↦ .ok m.toJson) path m = .ok P') :
    (∀ envVar, loadEscrowData { P' with envVar := envVar } J.fromStr path = .ok m) ↔
      ∀ s ∈ m.texts, ¬['$', '{'] <:+: s := by
  rw [Zescrow.load_saved_iff hJ (fun j hj ↦ ⟨_, (Except.ok.inj hj).symm⟩) hsave, ← m.all_toJson]
  exact ⟨fun h ↦ h _ rfl, fun h j hj ↦ Except.ok.inj hj ▸ h⟩

theorem Condition.load_saved_iff {C : Codecs} (hC : C.Standard) {P P' : Process} {W : FileWriter}
    {J : SerdeJson Condition} {path : Str} {c : Condition} (hJ : J.Inverts (Condition.toJson C) c)
    (hsave : saveEscrowData P W J (Condition.toJson C) path c = .ok P') :
    (∀ envVar, loadEscrowData { P' with envVar := envVar } J.fromStr path = .ok c) ↔
      ∀ s ∈ c.texts, ¬['$', '{'] <:+: s := by
  obtain ⟨j, hj, -⟩ := saveEscrowData_eq_ok hsave
  rw [Zescrow.load_saved_iff hJ (fun j ↦ Condition.toJson_object) hsave,
    ← Condition.all_toJson hC hj]
  refine ⟨fun h ↦ h j hj, fun h j' hj' ↦ ?_⟩
  obtain rfl := Except.ok.inj (hj.symm.trans hj')
  exact h

/-- **When saved files load back unchanged.** Metadata and conditions that were saved are what is
loaded in every environment exactly if none of their strings holds the start of a reference. -/
theorem saved_files_load_iff {C : Codecs} (hC : C.Standard) (P : Process) (W : FileWriter)
    (path : Str) :
    (∀ (J : SerdeJson EscrowMetadata) (m : EscrowMetadata) (P' : Process),
      J.Inverts (fun m ↦ .ok m.toJson) m →
      saveEscrowData P W J (fun m ↦ .ok m.toJson) path m = .ok P' →
      ((∀ envVar, loadEscrowData { P' with envVar := envVar } J.fromStr path = .ok m) ↔
        ∀ s ∈ m.texts, ¬['$', '{'] <:+: s)) ∧
    ∀ (J : SerdeJson Condition) (c : Condition) (P' : Process), J.Inverts (Condition.toJson C) c →
      saveEscrowData P W J (Condition.toJson C) path c = .ok P' →
      ((∀ envVar, loadEscrowData { P' with envVar := envVar } J.fromStr path = .ok c) ↔
        ∀ s ∈ c.texts, ¬['$', '{'] <:+: s) :=
  ⟨fun _ _ _ hJ hsave ↦ EscrowMetadata.load_saved_iff hJ hsave,
    fun _ _ _ hJ hsave ↦ Condition.load_saved_iff hC hJ hsave⟩

/-! ## A secret that looks like a reference -/

theorem escapesNone_verbatim : Json.EscapesNone verbatim := by
  have hprinted : ∀ d ∈ verbatim, 32 ≤ d.toNat := List.forall_iff_forall_mem.mp (by decide)
  have hescape : ∀ d ∈ verbatim, d ∉ Json.escapeChars := List.forall_iff_forall_mem.mp (by decide)
  exact Json.escapesNone_of hprinted hescape

/-- Prints as JSON is printed, and parses one text. -/
def SerdeJson.sample {β : Type} (toJson : β → Except String Json) (v : β) : SerdeJson β where
  toStringPretty := Json.pretty 0
  fromStr s := do
    let j ← toJson v
    if s = j.pretty 0 then .ok v else .error "unexpected text"

theorem SerdeJson.inverts_sample {β : Type} (toJson : β → Except String Json) (v : β) :
    (SerdeJson.sample toJson v).Inverts toJson v where
  text j _ := Json.text_pretty escapesNone_verbatim 0 j
  parse j hj := by
    simp only [sample, hj, ok_bind, if_true]

def FileWriter.sample : FileWriter where
  create _ := .ok ()
  write _ _ := .ok ()

/-- No file can be read, and no variable is set. -/
def Process.bare : Process where
  cargoManifestDir := []
  readToString _ := .error "No such file or directory"
  envVar _ := none

def EscrowMetadata.sample (rpcUrl : Str) : EscrowMetadata where
  params :=
    { chainConfig := ⟨.ethereum, rpcUrl, "key".toList, "cc".toList⟩
      asset := ⟨.native, none, 5, none⟩
      sender := ⟨.hex "bb".toList⟩
      recipient := ⟨.hex "aa".toList⟩
      finishAfter := some 10
      cancelAfter := none
      hasConditions := true }
  state := .funded
  escrowId := some 1

/-- A hashlock with a text for its preimage. -/
def Condition.secretSample (secret : Str) : Condition := .hashlock ⟨.zero 32, Utf8.encode secret⟩

theorem Condition.texts_secretSample (secret : Str) : (secretSample secret).texts = [secret] := by
  rw [secretSample, texts, Utf8.decode_eq_some.mpr rfl]
  rfl

theorem exists_save_sample {β : Type} {toJson : β → Except String Json} {v : β} {j : Json}
    (hj : toJson v = .ok j) (path : Str) :
    ∃ P', saveEscrowData .bare .sample (.sample toJson v) toJson path v = .ok P' := by
  refine ⟨_, bind_eq_ok.mpr ⟨(), rfl, bind_eq_ok.mpr ⟨j, ?_, rfl⟩⟩⟩
  rw [hj]
  rfl

theorem Condition.exists_save_secretSample (secret path : Str) :
    ∃ P', saveEscrowData .bare .sample (.sample (toJson .sample) (secretSample secret))
      (toJson .sample) path (secretSample secret) = .ok P' := by
  refine exists_save_sample (j := taggedJson "hashlock" (jsonObject
    [("hash", hexJson .sample (FixedBytes.zero 32).1), ("preimage", .string secret)])) ?_ path
  rw [secretSample, toJson, Hashlock.toJson, Utf8.decode_eq_some.mpr rfl]
  rfl

theorem saved_files_load_iff_sample :
    (∃ P', saveEscrowData .bare .sample (.sample (fun m ↦ .ok m.toJson) (.sample ['u']))
        (fun m : EscrowMetadata ↦ .ok m.toJson) ['m'] (.sample ['u']) = .ok P' ∧
      ((∀ envVar, loadEscrowData { P' with envVar := envVar }
          (SerdeJson.sample (fun m ↦ .ok m.toJson) (EscrowMetadata.sample ['u'])).fromStr ['m']
            = .ok (.sample ['u'])) ↔
        ∀ s ∈ (EscrowMetadata.sample ['u']).texts, ¬['$', '{'] <:+: s)) ∧
    ∃ P', saveEscrowData .bare .sample (.sample (Condition.toJson .sample) (.secretSample ['$']))
        (Condition.toJson .sample) ['m'] (.secretSample ['$']) = .ok P' ∧
      ((∀ envVar, loadEscrowData { P' with envVar := envVar }
          (SerdeJson.sample (Condition.toJson .sample) (.secretSample ['$'])).fromStr ['m']
            = .ok (.secretSample ['$'])) ↔
        ∀ s ∈ (Condition.secretSample ['$']).texts, ¬['$', '{'] <:+: s) := by
  have hiff := saved_files_load_iff Codecs.standard_sample .bare .sample ['m']
  obtain ⟨P₁, hP₁⟩ := @exists_save_sample EscrowMetadata (fun m ↦ .ok m.toJson) (.sample ['u']) _
    rfl ['m']
  obtain ⟨P₂, hP₂⟩ := Condition.exists_save_secretSample ['$'] ['m']
  exact ⟨⟨P₁, hP₁, hiff.1 _ _ _ (SerdeJson.inverts_sample _ _) hP₁⟩,
    P₂, hP₂, hiff.2 _ _ _ (SerdeJson.inverts_sample _ _) hP₂⟩

/-- A preimage that looks like a reference is saved, but cannot be loaded everywhere. -/
theorem not_load_saved_secret :
    ∃ P', saveEscrowData .bare .sample (.sample (Condition.toJson .sample)
        (.secretSample ['$', '{', 'X', '}'])) (Condition.toJson .sample) ['m']
        (.secretSample ['$', '{', 'X', '}']) = .ok P' ∧
      ¬∀ envVar, loadEscrowData { P' with envVar := envVar }
        (SerdeJson.sample (Condition.toJson .sample)
          (.secretSample ['$', '{', 'X', '}'])).fromStr ['m']
          = .ok (.secretSample ['$', '{', 'X', '}']) := by
  obtain ⟨P', hsave⟩ := Condition.exists_save_secretSample ['$', '{', 'X', '}'] ['m']
  refine ⟨P', hsave, ?_⟩
  rw [Condition.load_saved_iff Codecs.standard_sample (SerdeJson.inverts_sample _ _) hsave,
    Condition.texts_secretSample, List.forall_mem_singleton]
  decide

end Zescrow
