import Zescrow.Core.Deserialization

/-!
# Loading saved files

What was saved is loaded back if the printer and the parser of JSON fit together on it. They do
unless the value is nested too deep, which metadata never are and conditions may be: the printer has
no limit, and the parser has one.
-/

open Foundation Foundation.Serde

namespace Zescrow

/-! ## How deep values are written -/

mutual

/-- How deep the JSON of a condition is. -/
def Condition.jsonDepth : Condition → ℕ
  | .hashlock _ => 2
  | .ed25519 _ => 2
  | .secp256k1 _ => 2
  | .threshold _ subconditions => Condition.jsonDepths subconditions + 3

def Condition.jsonDepths : List Condition → ℕ
  | [] => 0
  | c :: cs => max c.jsonDepth (Condition.jsonDepths cs)

end

theorem Condition.depth_toJson {C : Codecs} {c : Condition} {j : Json} (h : c.toJson C = .ok j) :
    j.depth = c.jsonDepth := by
  induction c generalizing j with
  | hashlock l =>
    simp only [toJson, Hashlock.toJson, bind_eq_ok] at h
    obtain ⟨w, ⟨preimage, -, hw⟩, hj⟩ := h
    obtain rfl := Except.ok.inj hw
    obtain rfl := Except.ok.inj hj
    rw [depth_taggedJson]
    simp [jsonObject, hexJson, Json.depth, Json.depthMembers, jsonDepth]
  | ed25519 e =>
    obtain rfl := Except.ok.inj h
    rw [depth_taggedJson]
    simp [Ed25519.toJson, jsonObject, hexJson, Json.depth, Json.depthMembers, jsonDepth]
  | secp256k1 s =>
    obtain rfl := Except.ok.inj h
    rw [depth_taggedJson]
    simp [Secp256k1.toJson, jsonObject, hexJson, Json.depth, Json.depthMembers, jsonDepth]
  | threshold required cs ih =>
    have hitems (cs' : List Condition) (items : List Json) (hsub : cs' ⊆ cs)
        (h : toJsons C cs' = .ok items) : Json.depthItems items = jsonDepths cs' := by
      induction cs' generalizing items with
      | nil =>
        obtain rfl := Except.ok.inj h
        rfl
      | cons c cs' ihcs =>
        simp only [toJsons, bind_eq_ok] at h
        obtain ⟨item, hitem, items', hitems', hcons⟩ := h
        obtain rfl := Except.ok.inj hcons
        rw [Json.depthItems, jsonDepths, ih c (hsub List.mem_cons_self) hitem,
          ihcs items' (fun _ hc ↦ hsub (List.mem_cons_of_mem _ hc)) hitems']
    simp only [toJson, bind_eq_ok] at h
    obtain ⟨items, hjsons, hj⟩ := h
    obtain rfl := Except.ok.inj hj
    rw [depth_thresholdJson, jsonDepth, hitems cs items (List.Subset.refl _) hjsons]

theorem depth_jsonObject_le_iff {members : List (String × Json)} {n : ℕ} :
    (jsonObject members).depth ≤ n + 1 ↔ ∀ m ∈ members, m.2.depth ≤ n := by
  rw [jsonObject, Json.depth, Nat.add_le_add_iff_right, Json.depthMembers_le_iff,
    List.forall_mem_map]

theorem depth_jsonOption_le {α : Type} {toJson : α → Json} {n : ℕ} (h : ∀ a, (toJson a).depth ≤ n)
    (o : Option α) : (jsonOption toJson o).depth ≤ n := by
  cases o with
  | none => exact Nat.zero_le n
  | some a => exact h a

theorem ID.depth_toJson_le (id : ID) : id.toJson.depth ≤ 2 := by
  have hbytes (b : Bytes) : (Json.array (b.map fun x ↦ jsonNat x.toNat)).depth ≤ 1 := by
    refine Nat.succ_le_succ (Json.depthItems_le_iff.mpr (List.forall_mem_map.mpr fun x _ ↦ ?_))
    exact Nat.le_refl 0
  cases id with
  | hex | base58 | base64 => exact depth_jsonObject_le_iff.mpr (by simp [Json.depth])
  | bytes b => exact depth_jsonObject_le_iff.mpr (by simpa using hbytes b)

theorem Party.depth_toJson_le (p : Party) : p.toJson.depth ≤ 3 :=
  depth_jsonObject_le_iff.mpr (by simpa using p.identity.depth_toJson_le)

theorem Asset.depth_toJson_le (a : Asset) : a.toJson.depth ≤ 3 := by
  have hkind : a.kind.toJson.depth = 0 := by cases a.kind <;> rfl
  have hid := depth_jsonOption_le ID.depth_toJson_le a.agentId
  have hdecimals : (jsonOption (fun d : UInt8 ↦ jsonNat d.toNat) a.decimals).depth ≤ 2 :=
    depth_jsonOption_le (fun _ ↦ Nat.zero_le 2) a.decimals
  refine depth_jsonObject_le_iff.mpr ?_
  simp only [List.forall_mem_cons, List.not_mem_nil, IsEmpty.forall_iff, implies_true, and_true]
  exact ⟨by omega, hid, Nat.zero_le 2, hdecimals⟩

theorem ChainConfig.depth_toJson_le (c : ChainConfig) : c.toJson.depth ≤ 1 := by
  have hchain : c.chain.toJson.depth = 0 := by cases c.chain <;> rfl
  exact depth_jsonObject_le_iff.mpr (by simp [hchain, Json.depth])

theorem EscrowMetadata.depth_toJson_le (m : EscrowMetadata) : m.toJson.depth ≤ 5 := by
  have hnat (n : ℕ) (o : Option UInt64) : (jsonOption (fun h ↦ jsonNat h.toNat) o).depth ≤ n :=
    depth_jsonOption_le (fun _ ↦ Nat.zero_le n) o
  have hconfig := m.params.chainConfig.depth_toJson_le
  have hasset := m.params.asset.depth_toJson_le
  have hsender := m.params.sender.depth_toJson_le
  have hrecipient := m.params.recipient.depth_toJson_le
  have hstate : m.state.toJson.depth = 0 := by cases m.state <;> rfl
  have hparams : m.params.toJson.depth ≤ 4 := by
    refine depth_jsonObject_le_iff.mpr ?_
    simp only [List.forall_mem_cons, List.not_mem_nil, IsEmpty.forall_iff, implies_true, and_true]
    exact ⟨by omega, hasset, hsender, hrecipient, hnat 3 _, hnat 3 _, Nat.zero_le 3⟩
  refine depth_jsonObject_le_iff.mpr ?_
  simp only [List.forall_mem_cons, List.not_mem_nil, IsEmpty.forall_iff, implies_true, and_true]
  exact ⟨hparams, by omega, hnat 4 _⟩

/-! ## Files -/

/-- `serde_json`: its printer, and its parser of a value of any form. -/
structure JsonText where
  toStringPretty : Json → Str
  parse : Str → Except String Json

/-- Reads a type from what was parsed. -/
def JsonText.serde {β : Type} (J : JsonText) (fromJson : De β) : SerdeJson β where
  toStringPretty := J.toStringPretty
  fromStr s := do
    let v ← J.parse s
    (fromJson v).mapError fun _ ↦ "invalid data"

/-- What is nested deeper is not parsed. The parser counts down from 128. -/
def recursionLimit : ℕ := 127

/-- The value `j` is printed as JSON with the characters of references as they are, and parsed from
that unless it is nested too deep. -/
structure JsonText.Inverts (J : JsonText) (j : Json) : Prop where
  text : j.Text verbatim (J.toStringPretty j)
  parse : ∀ v, J.parse (J.toStringPretty j) = .ok v ↔ j.depth ≤ recursionLimit ∧ v = j

section

variable {β : Type} {J : JsonText} {fromJson : De β} {toJson : β → Except String Json} {b : β}

theorem JsonText.Inverts.fromStr_eq_ok {j : Json} (hJ : J.Inverts j) (hread : fromJson j = .ok b) :
    (J.serde fromJson).fromStr (J.toStringPretty j) = .ok b ↔ j.depth ≤ recursionLimit := by
  rw [serde, bind_eq_ok]
  simp only [hJ.parse, mapError_eq_ok]
  constructor
  · rintro ⟨v, ⟨hdepth, -⟩, -⟩
    exact hdepth
  · exact fun hdepth ↦ ⟨j, ⟨hdepth, rfl⟩, hread⟩

/-- A printed value without references is loaded as itself, unless it is nested too deep. -/
theorem loadEscrowData_printed {P : Process} {path : Str} {j : Json} (hJ : J.Inverts j)
    (hno : j.All NoReference) (hread : fromJson j = .ok b)
    (hfile : P.readToString path = .ok (J.toStringPretty j)) {b' : β} :
    loadEscrowData P (J.serde fromJson).fromStr path = .ok b' ↔
      b' = b ∧ j.depth ≤ recursionLimit := by
  have hnone : NoReference (J.toStringPretty j) := (hJ.text.avoids_iff inner_verbatim).mpr hno
  rw [loadEscrowData, hfile, Except.mapError, ok_bind, expandEnvChecked_of_noReference hnone,
    ok_bind, mapError_eq_ok]
  constructor
  · intro h
    obtain ⟨v, hv, hb⟩ := bind_eq_ok.mp h
    obtain ⟨hdepth, rfl⟩ := (hJ.parse v).mp hv
    exact ⟨Except.ok.inj ((mapError_eq_ok.mp hb).symm.trans hread), hdepth⟩
  · rintro ⟨rfl, hdepth⟩
    exact (hJ.fromStr_eq_ok hread).mpr hdepth

/-- Where no variable is set, a text that ends with a brace is expanded only if nothing in it looks
like a reference. -/
theorem noReference_of_expandEnvChecked {P : Process} {content expanded : Str}
    (hlast : content.getLast? = some '}') (hP : P.envVar = fun _ ↦ none)
    (h : expandEnvChecked P content = .ok expanded) : NoReference content := by
  intro href
  obtain ⟨name, hname⟩ := List.exists_mem_of_ne_nil _ (template_names_ne_nil href hlast)
  exact (expandEnvChecked_eq_ok.mp h).1 name hname (congrFun hP name)

/-- A saved value is loaded again in every environment exactly if nothing in its strings looks like
a reference and it is not nested too deep. -/
theorem load_saved_text_iff {P P' : Process} {W : FileWriter} {path : Str} {j : Json}
    (hj : toJson b = .ok j) (hJ : J.Inverts j) (hread : fromJson j = .ok b)
    (hobject : ∃ members, j = .object members)
    (hsave : saveEscrowData P W (J.serde fromJson) toJson path b = .ok P') :
    (∀ envVar, loadEscrowData { P' with envVar := envVar } (J.serde fromJson).fromStr path
        = .ok b) ↔
      j.All NoReference ∧ j.depth ≤ recursionLimit := by
  by_cases hdepth : j.depth ≤ recursionLimit
  · have hinverts : (J.serde fromJson).Inverts toJson b := by
      constructor
      · intro j' hj'
        obtain rfl := Except.ok.inj (hj.symm.trans hj')
        exact hJ.text
      · intro j' hj'
        obtain rfl := Except.ok.inj (hj.symm.trans hj')
        exact (hJ.fromStr_eq_ok hread).mpr hdepth
    have hobject' : ∀ j', toJson b = .ok j' → ∃ members, j' = .object members := by
      intro j' hj'
      obtain rfl := Except.ok.inj (hj.symm.trans hj')
      exact hobject
    rw [load_saved_iff hinverts hobject' hsave, and_iff_left hdepth]
    refine ⟨fun h ↦ h j hj, fun h j' hj' ↦ ?_⟩
    obtain rfl := Except.ok.inj (hj.symm.trans hj')
    exact h
  · refine iff_of_false (fun hload ↦ hdepth ?_) fun h ↦ hdepth h.2
    obtain ⟨j', hj', hfile⟩ := saveEscrowData_eq_ok hsave
    obtain rfl := Except.ok.inj (hj.symm.trans hj')
    obtain ⟨content, expanded, hcontent, hexpand, hfrom⟩ :=
      loadEscrowData_eq_ok.mp (hload fun _ ↦ none)
    obtain rfl := Except.ok.inj (hfile.symm.trans hcontent)
    obtain ⟨members, rfl⟩ := hobject
    have hnone : NoReference (J.toStringPretty (.object members)) :=
      noReference_of_expandEnvChecked hJ.text.getLast?_object rfl hexpand
    have hsame : J.toStringPretty (.object members) = expanded :=
      Except.ok.inj ((expandEnvChecked_of_noReference hnone).symm.trans hexpand)
    rw [← hsame] at hfrom
    exact (hJ.fromStr_eq_ok hread).mp hfrom

end

theorem saveEscrowData_escrowConditionsPath {β : Type} {P P' : Process} {W : FileWriter}
    {J : SerdeJson β} {toJson : β → Except String Json} {path : Str} {v : β}
    (h : saveEscrowData P W J toJson path v = .ok P') :
    P'.escrowConditionsPath = P.escrowConditionsPath := by
  simp only [saveEscrowData, bind_eq_ok] at h
  obtain ⟨-, -, j, -, -, -, hP⟩ := h
  obtain rfl := Except.ok.inj hP
  rfl

/-- The escrow that metadata describe, with the condition. -/
def EscrowMetadata.escrow (m : EscrowMetadata) (condition : Condition) : Escrow :=
  ⟨m.params.asset, m.params.recipient, m.params.sender, some condition, m.state⟩

theorem Escrow.fromMetadata_saved_iff {C : Codecs} (hC : C.Standard) {J : JsonText}
    {P P' : Process} {W : FileWriter} {c : Condition} {j : Json} (hc : c.UsizeThresholds)
    (hj : c.toJson C = .ok j) (hJ : J.Inverts j)
    (hsave : saveEscrowData P W (J.serde (Condition.fromJson C)) (Condition.toJson C)
      P.escrowConditionsPath c = .ok P') {m : EscrowMetadata} (hm : m.params.hasConditions = true)
    (envVar : Str → Option Str) :
    Escrow.fromMetadata { P' with envVar := envVar } (J.serde (Condition.fromJson C)).fromStr m
        = .ok (m.escrow c) ↔ c.jsonDepth ≤ recursionLimit := by
  obtain ⟨j', hj', hfile⟩ := saveEscrowData_eq_ok hsave
  obtain rfl := Except.ok.inj (hj.symm.trans hj')
  have hpath : P'.escrowConditionsPath = P.escrowConditionsPath :=
    saveEscrowData_escrowConditionsPath hsave
  have hread := Condition.fromJson_toJson hC hc hj
  rw [← Condition.depth_toJson hj, ← hJ.fromStr_eq_ok hread, fromMetadata_eq_ok hm]
  rw [← hpath] at hfile
  constructor
  · rintro ⟨content, c', hcontent, hparse, hescrow⟩
    obtain rfl : c = c' := Option.some.inj (congrArg Escrow.condition hescrow)
    obtain rfl := Except.ok.inj (hfile.symm.trans hcontent)
    exact hparse
  · intro hparse
    exact ⟨_, c, hfile, hparse, rfl⟩

/-- **When saved files load back, down to their text.** Saved metadata are loaded in every
environment exactly if none of their strings holds the start of a reference. For a saved condition
this holds if moreover its JSON is not nested too deep; `from_metadata`, which expands nothing,
reads it exactly if its JSON is not nested too deep. -/
theorem saved_files_read_iff {C : Codecs} (hC : C.Standard) {parseBytes : Str → Option ℕ}
    (hparse : ∀ n, parseBytes (Decimal.numeral n) = some n) (J : JsonText) (P : Process)
    (W : FileWriter) :
    (∀ (m : EscrowMetadata) (path : Str) (P' : Process), J.Inverts m.toJson →
      saveEscrowData P W (J.serde (EscrowMetadata.fromJson parseBytes)) (fun m ↦ .ok m.toJson)
        path m = .ok P' →
      ((∀ envVar, loadEscrowData { P' with envVar := envVar }
          (J.serde (EscrowMetadata.fromJson parseBytes)).fromStr path = .ok m) ↔
        ∀ s ∈ m.texts, ¬['$', '{'] <:+: s)) ∧
    ∀ (c : Condition) (path : Str) (P' : Process), c.UsizeThresholds →
      (∀ j, c.toJson C = .ok j → J.Inverts j) →
      saveEscrowData P W (J.serde (Condition.fromJson C)) (Condition.toJson C) path c = .ok P' →
      ((∀ envVar, loadEscrowData { P' with envVar := envVar }
          (J.serde (Condition.fromJson C)).fromStr path = .ok c) ↔
        (∀ s ∈ c.texts, ¬['$', '{'] <:+: s) ∧ c.jsonDepth ≤ recursionLimit) ∧
      (path = P.escrowConditionsPath → ∀ m : EscrowMetadata, m.params.hasConditions = true →
        ∀ envVar, Escrow.fromMetadata { P' with envVar := envVar }
          (J.serde (Condition.fromJson C)).fromStr m = .ok (m.escrow c) ↔
            c.jsonDepth ≤ recursionLimit) := by
  constructor
  · intro m path P' hJ hsave
    have hdepth : m.toJson.depth ≤ recursionLimit := m.depth_toJson_le.trans (by decide)
    have hread := EscrowMetadata.fromJson_toJson hparse m
    rw [load_saved_text_iff (b := m) rfl hJ hread ⟨_, rfl⟩ hsave, and_iff_left hdepth,
      m.all_toJson]
  · intro c path P' hc hJ hsave
    obtain ⟨j, hj, -⟩ := saveEscrowData_eq_ok hsave
    have hread := Condition.fromJson_toJson hC hc hj
    constructor
    · rw [load_saved_text_iff hj (hJ j hj) hread (Condition.toJson_object hj) hsave,
        Condition.all_toJson hC hj, Condition.depth_toJson hj]
    · rintro rfl m hm envVar
      exact Escrow.fromMetadata_saved_iff hC hc hj (hJ j hj) hsave hm envVar

/-- Prints as JSON is printed, and parses the texts of some values. -/
def JsonText.sample (js : List Json) : JsonText where
  toStringPretty := Json.pretty 0
  parse s := (js.find? (·.pretty 0 = s)).elim (.error "unexpected text") .ok

theorem JsonText.inverts_sample {js : List Json} {j : Json} (hdepth : j.depth ≤ recursionLimit)
    (h : js.find? (·.pretty 0 = j.pretty 0) = some j) : (JsonText.sample js).Inverts j where
  text := Json.text_pretty escapesNone_verbatim 0 j
  parse v := by
    have hparse : (sample js).parse ((sample js).toStringPretty j) = .ok j := elim_eq_ok.mpr h
    rw [and_iff_right hdepth, hparse, Except.ok.injEq, eq_comm]

theorem JsonText.inverts_sample_singleton {j : Json} (hdepth : j.depth ≤ recursionLimit) :
    (JsonText.sample [j]).Inverts j :=
  inverts_sample hdepth (List.find?_cons_of_pos (decide_eq_true rfl))

theorem saved_files_read_iff_sample :
    (∃ P', saveEscrowData .bare .sample
        ((JsonText.sample [(EscrowMetadata.sample ['u']).toJson]).serde
          (EscrowMetadata.fromJson parseDecimal))
        (fun m : EscrowMetadata ↦ .ok m.toJson) ['m'] (.sample ['u']) = .ok P' ∧
      ((∀ envVar, loadEscrowData { P' with envVar := envVar }
          ((JsonText.sample [(EscrowMetadata.sample ['u']).toJson]).serde
            (EscrowMetadata.fromJson parseDecimal)).fromStr ['m'] = .ok (.sample ['u'])) ↔
        ∀ s ∈ (EscrowMetadata.sample ['u']).texts, ¬['$', '{'] <:+: s)) ∧
    ∃ j P', (Condition.nestedSample ['s']).toJson .sample = .ok j ∧
      saveEscrowData .bare .sample ((JsonText.sample [j]).serde (Condition.fromJson .sample))
        (Condition.toJson .sample) Process.bare.escrowConditionsPath (.nestedSample ['s'])
          = .ok P' ∧
      ((∀ envVar, loadEscrowData { P' with envVar := envVar }
          ((JsonText.sample [j]).serde (Condition.fromJson .sample)).fromStr
            Process.bare.escrowConditionsPath = .ok (.nestedSample ['s'])) ↔
        (∀ s ∈ (Condition.nestedSample ['s']).texts, ¬['$', '{'] <:+: s) ∧
          (Condition.nestedSample ['s']).jsonDepth ≤ recursionLimit) ∧
      Escrow.fromMetadata P' ((JsonText.sample [j]).serde (Condition.fromJson .sample)).fromStr
        (.sample ['u']) = .ok ((EscrowMetadata.sample ['u']).escrow (.nestedSample ['s'])) := by
  constructor
  · obtain ⟨P', hP⟩ : ∃ P', saveEscrowData .bare .sample
        ((JsonText.sample [(EscrowMetadata.sample ['u']).toJson]).serde
          (EscrowMetadata.fromJson parseDecimal))
        (fun m : EscrowMetadata ↦ .ok m.toJson) ['m'] (.sample ['u']) = .ok P' := ⟨_, rfl⟩
    have hdepth : (EscrowMetadata.sample ['u']).toJson.depth ≤ recursionLimit :=
      (EscrowMetadata.sample ['u']).depth_toJson_le.trans (by decide)
    exact ⟨P', hP, (saved_files_read_iff Codecs.standard_sample parseDecimal_numeral _ _ _).1 _ _ _
      (JsonText.inverts_sample_singleton hdepth) hP⟩
  · obtain ⟨j, hj⟩ := Condition.toJson_nestedSample ['s']
    have hshallow : (Condition.nestedSample ['s']).jsonDepth ≤ recursionLimit := by decide
    have hJ : (JsonText.sample [j]).Inverts j :=
      JsonText.inverts_sample_singleton ((Condition.depth_toJson hj).trans_le hshallow)
    have hJ' : ∀ j', (Condition.nestedSample ['s']).toJson .sample = .ok j' →
        (JsonText.sample [j]).Inverts j' := by
      intro j' hj'
      obtain rfl := Except.ok.inj (hj.symm.trans hj')
      exact hJ
    obtain ⟨P', hP⟩ : ∃ P', saveEscrowData .bare .sample
        ((JsonText.sample [j]).serde (Condition.fromJson .sample)) (Condition.toJson .sample)
        Process.bare.escrowConditionsPath (.nestedSample ['s']) = .ok P' := by
      rw [saveEscrowData, hj]
      exact ⟨_, rfl⟩
    obtain ⟨hload, hmetadata⟩ := (saved_files_read_iff Codecs.standard_sample parseDecimal_numeral
      (.sample [j]) .bare .sample).2 _ _ _ (Condition.usizeThresholds_nestedSample ['s']) hJ' hP
    exact ⟨j, P', hj, hP, hload, (hmetadata rfl (.sample ['u']) rfl P'.envVar).mpr hshallow⟩

end Zescrow
