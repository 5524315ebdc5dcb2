import Zescrow.Core.LoadedFiles

/-!
# Generating condition files

The `generate` command writes a condition to a file: a hashlock on the text of another file, a
signature condition from its parts, or a threshold over the conditions of other files. A script of
such commands builds a tree of conditions file by file, and each file has what was last written to
it. What the script leaves can be loaded wherever it is not nested too deep, and the hashlocks of
whatever can be loaded are open, as long as no secret looks like a reference.
-/

open Foundation Foundation.Serde

namespace Zescrow

/-- What to generate, and the file to write it to. -/
inductive GenerateCmd where
  | hashlock (preimage output : Str)
  | ed25519 (pubkey msg sig output : Str)
  | secp256k1 (pubkey msg sig output : Str)
  | threshold (subconditions : List Str) (required : UInt64) (output : Str)

def GenerateCmd.output : GenerateCmd → Str
  | .hashlock _ output => output
  | .ed25519 _ _ _ output => output
  | .secp256k1 _ _ _ output => output
  | .threshold _ _ output => output

/-- Errors from generating a condition. -/
inductive GenerateError where
  | reading (path : Str) (e : String)
  | hex (e : String)
  | pubkeyLength
  | loading (e : LoadError)
  | saving (e : SaveError)
  deriving DecidableEq

/-- Loads the conditions of some files. -/
def loadConditions (P : Process) (fromStr : Str → Except String Condition) :
    List Str → Except LoadError (List Condition)
  | [] => .ok []
  | path :: paths => do
    let c ← loadEscrowData P fromStr path
    let subs ← loadConditions P fromStr paths
    .ok (c :: subs)

/-- The condition a command generates. -/
def GenerateCmd.condition (C : Codecs) (P : Process) (fromStr : Str → Except String Condition) :
    GenerateCmd → Except GenerateError Condition
  | .hashlock preimage _ => do
    let preimage ← (P.readToString preimage).mapError (.reading preimage)
    let hash := C.sha256 (Utf8.encode preimage)
    .ok (.hashlock ⟨hash, Utf8.encode preimage⟩)
  | .ed25519 pubkey msg sig _ => do
    let bytes ← (C.hexDecode pubkey).mapError .hex
    let pk ← (Reader.tryInto 32 bytes).elim (.error .pubkeyLength) .ok
    let message ← (C.hexDecode msg).mapError .hex
    let signature ← (C.hexDecode sig).mapError .hex
    .ok (.ed25519 ⟨pk, signature, message⟩)
  | .secp256k1 pubkey msg sig _ => do
    let pk ← (C.hexDecode pubkey).mapError .hex
    let message ← (C.hexDecode msg).mapError .hex
    let signature ← (C.hexDecode sig).mapError .hex
    .ok (.secp256k1 ⟨pk, signature, message⟩)
  | .threshold subconditions required _ => do
    let subs ← (loadConditions P fromStr subconditions).mapError .loading
    .ok (.threshold required.toNat subs)

/-- Generates a condition and saves it. With the process afterwards comes the condition. -/
def handleGenerateCmd (C : Codecs) (P : Process) (W : FileWriter) (J : SerdeJson Condition)
    (cmd : GenerateCmd) : Except GenerateError (Process × Condition) := do
  let cond ← cmd.condition C P J.fromStr
  let P' ← (saveEscrowData P W J (Condition.toJson C) cmd.output cond).mapError .saving
  .ok (P', cond)

/-- Commands that succeed one after the other, each in an environment of its own. With the process
afterwards comes what was saved in which file, the latest first. -/
inductive Script (C : Codecs) (W : FileWriter) (J : SerdeJson Condition) (P : Process) :
    List (Str × Condition) → Process → Prop
  | start : Script C W J P [] P
  | step {saved : List (Str × Condition)} {P₁ P₂ : Process} (h : Script C W J P saved P₁)
      (envVar : Str → Option Str) (cmd : GenerateCmd) {c : Condition}
      (hcmd : handleGenerateCmd C { P₁ with envVar := envVar } W J cmd = .ok (P₂, c)) :
      Script C W J P ((cmd.output, c) :: saved) P₂

/-- What was last saved in a file. -/
def lastSaved (saved : List (Str × Condition)) (path : Str) : Option Condition :=
  (saved.find? (·.1 = path)).map Prod.snd

/-- Every hashlock of the tree opens with its preimage. -/
inductive Condition.HashlocksOpen (K : Crates) : Condition → Prop
  | hashlock {h : Hashlock} (hopen : (Condition.hashlock h).Satisfied K) :
      HashlocksOpen K (.hashlock h)
  | ed25519 (e : Ed25519) : HashlocksOpen K (.ed25519 e)
  | secp256k1 (s : Secp256k1) : HashlocksOpen K (.secp256k1 s)
  | threshold {required : ℕ} {subconditions : List Condition}
      (hsub : ∀ c ∈ subconditions, HashlocksOpen K c) :
      HashlocksOpen K (.threshold required subconditions)

/-- Whatever is loaded as a condition, in whatever environment, has open hashlocks. -/
def Process.LoadsOpen (K : Crates) (fromStr : Str → Except String Condition) (P : Process) : Prop :=
  ∀ envVar path c, loadEscrowData { P with envVar := envVar } fromStr path = .ok c →
    c.HashlocksOpen K

/-! ## One command -/

section

variable {C : Codecs} {P P' : Process} {fromStr : Str → Except String Condition}

theorem loadConditions_eq_ok {paths : List Str} {cs : List Condition}
    (h : loadConditions P fromStr paths = .ok cs) :
    ∀ c ∈ cs, ∃ path, loadEscrowData P fromStr path = .ok c := by
  induction paths generalizing cs with
  | nil =>
    obtain rfl := Except.ok.inj h
    simp
  | cons path paths ih =>
    simp only [loadConditions, bind_eq_ok] at h
    obtain ⟨c, hc, subs, hsubs, hcs⟩ := h
    obtain rfl := Except.ok.inj hcs
    exact List.forall_mem_cons.mpr ⟨⟨path, hc⟩, ih hsubs⟩

/-- What holds of signature conditions, of hashlocks with the digest of their preimage, and of
thresholds over conditions that are loaded, holds of what is generated. -/
theorem GenerateCmd.condition_induction {motive : Condition → Prop} {cmd : GenerateCmd}
    {c : Condition} (h : cmd.condition C P fromStr = .ok c)
    (hashlock : ∀ s, motive (.hashlock ⟨C.sha256 (Utf8.encode s), Utf8.encode s⟩))
    (ed25519 : ∀ e, motive (.ed25519 e)) (secp256k1 : ∀ s, motive (.secp256k1 s))
    (threshold : ∀ (n : UInt64) cs,
      (∀ c ∈ cs, ∃ path, loadEscrowData P fromStr path = .ok c) →
      motive (.threshold n.toNat cs)) : motive c := by
  cases cmd with
  | hashlock preimage output =>
    simp only [condition, bind_eq_ok] at h
    obtain ⟨s, -, hc⟩ := h
    obtain rfl := Except.ok.inj hc
    exact hashlock s
  | ed25519 pubkey msg sig output =>
    simp only [condition, bind_eq_ok] at h
    obtain ⟨bytes, -, pk, -, message, -, signature, -, hc⟩ := h
    obtain rfl := Except.ok.inj hc
    exact ed25519 _
  | secp256k1 pubkey msg sig output =>
    simp only [condition, bind_eq_ok] at h
    obtain ⟨pk, -, message, -, signature, -, hc⟩ := h
    obtain rfl := Except.ok.inj hc
    exact secp256k1 _
  | threshold subconditions n output =>
    simp only [condition, bind_eq_ok, mapError_eq_ok] at h
    obtain ⟨subs, hsubs, hc⟩ := h
    obtain rfl := Except.ok.inj hc
    exact threshold n subs (loadConditions_eq_ok hsubs)

theorem handleGenerateCmd_eq_ok {W : FileWriter} {J : SerdeJson Condition} {cmd : GenerateCmd}
    {c : Condition} (h : handleGenerateCmd C P W J cmd = .ok (P', c)) :
    cmd.condition C P J.fromStr = .ok c ∧ ∃ j, c.toJson C = .ok j ∧
      P'.readToString = Function.update P.readToString cmd.output (.ok (J.toStringPretty j)) := by
  simp only [handleGenerateCmd, bind_eq_ok, mapError_eq_ok] at h
  obtain ⟨cond, hcond, P'', hsave, h⟩ := h
  obtain ⟨rfl, rfl⟩ := Prod.mk.inj (Except.ok.inj h)
  simp only [saveEscrowData, bind_eq_ok, mapError_eq_ok] at hsave
  obtain ⟨-, -, j, hj, -, -, hP⟩ := hsave
  obtain rfl := Except.ok.inj hP
  exact ⟨hcond, j, hj, rfl⟩

end

/-! ## Scripts -/

theorem lastSaved_cons {path path' : Str} {c : Condition} {saved : List (Str × Condition)} :
    lastSaved ((path, c) :: saved) path' =
      if path = path' then some c else lastSaved saved path' := by
  by_cases h : path = path' <;> simp [lastSaved, h]

theorem loadEscrowData_congr {β : Type} {P P' : Process} {fromStr : Str → Except String β}
    {path : Str} (hread : P.readToString path = P'.readToString path)
    (henv : P.envVar = P'.envVar) :
    loadEscrowData P fromStr path = loadEscrowData P' fromStr path := by
  simp only [loadEscrowData, expandEnvChecked, hread, henv]

section

variable {C : Codecs} {W : FileWriter} {J : JsonText} {P P' : Process}
  {saved : List (Str × Condition)}

/-- The files after a script: those that were written hold what was last written, the others are
as before. -/
structure FilesHold (C : Codecs) (J : JsonText) (P : Process) (saved : List (Str × Condition))
    (P' : Process) : Prop where
  unchanged : ∀ path, lastSaved saved path = none → P'.readToString path = P.readToString path
  written : ∀ path c, lastSaved saved path = some c →
    ∃ j, c.toJson C = .ok j ∧ P'.readToString path = .ok (J.toStringPretty j)

theorem Script.filesHold (h : Script C W (J.serde (Condition.fromJson C)) P saved P') :
    FilesHold C J P saved P' := by
  induction h with
  | start => exact ⟨fun _ _ ↦ rfl, fun _ _ h ↦ absurd h.symm (Option.some_ne_none _)⟩
  | @step saved P₁ P₂ _ envVar cmd c hcmd ih =>
    obtain ⟨-, j, hj, hfiles⟩ := handleGenerateCmd_eq_ok hcmd
    constructor
    · intro path hpath
      rw [lastSaved_cons] at hpath
      split at hpath
      · exact absurd hpath (Option.some_ne_none c)
      · next hne =>
        rw [hfiles, Function.update_of_ne (Ne.symm hne)]
        exact ih.unchanged path hpath
    · intro path c' hpath
      rw [lastSaved_cons] at hpath
      split at hpath
      · next heq =>
        obtain rfl := Option.some.inj hpath
        obtain rfl := heq
        exact ⟨j, hj, by rw [hfiles, Function.update_self]; rfl⟩
      · next hne =>
        rw [hfiles, Function.update_of_ne (Ne.symm hne)]
        exact ih.written path c' hpath

theorem mem_of_lastSaved {path : Str} {c : Condition} (h : lastSaved saved path = some c) :
    (path, c) ∈ saved := by
  obtain ⟨e, he, rfl⟩ := Option.map_eq_some_iff.mp h
  have hpath : e.1 = path := by simpa using List.find?_some he
  exact hpath ▸ List.mem_of_find?_eq_some he

variable (hC : C.Standard)
  (hjson : ∀ e ∈ saved, ∀ j, e.2.toJson C = .ok j → J.Inverts j)
  (hno : ∀ e ∈ saved, ∀ s ∈ e.2.texts, NoReference s)

include hC hjson hno

theorem FilesHold.load_iff (h : FilesHold C J P saved P')
    (husize : ∀ e ∈ saved, e.2.UsizeThresholds) {path : Str} {c : Condition}
    (hpath : lastSaved saved path = some c) {envVar : Str → Option Str} {c' : Condition} :
    loadEscrowData { P' with envVar := envVar } (J.serde (Condition.fromJson C)).fromStr path
      = .ok c' ↔ c' = c ∧ c.jsonDepth ≤ recursionLimit := by
  have hmem := mem_of_lastSaved hpath
  obtain ⟨j, hj, hfile⟩ := h.written path c hpath
  have hread : Condition.fromJson C j = .ok c := Condition.fromJson_toJson hC (husize _ hmem) hj
  have hnone : j.All NoReference := (Condition.all_toJson hC hj).mpr (hno _ hmem)
  have hfile' : ({ P' with envVar := envVar } : Process).readToString path =
      .ok (J.toStringPretty j) := hfile
  rw [← Condition.depth_toJson hj]
  exact loadEscrowData_printed (hjson _ hmem j hj) hnone hread hfile'

theorem FilesHold.loadsOpen (h : FilesHold C J P saved P')
    (husize : ∀ e ∈ saved, e.2.UsizeThresholds)
    (hopen : ∀ e ∈ saved, e.2.HashlocksOpen C.toCrates)
    (hstart : P.LoadsOpen C.toCrates (J.serde (Condition.fromJson C)).fromStr) :
    P'.LoadsOpen C.toCrates (J.serde (Condition.fromJson C)).fromStr := by
  intro envVar path c hload
  cases hpath : lastSaved saved path with
  | none =>
    refine hstart envVar path c ?_
    rw [← hload]
    exact loadEscrowData_congr (h.unchanged path hpath).symm rfl
  | some c' =>
    obtain ⟨rfl, -⟩ := (h.load_iff hC hjson hno husize hpath).mp hload
    exact hopen _ (mem_of_lastSaved hpath)

end

theorem usizeThresholds_of_load {C : Codecs} {J : JsonText} {P : Process} {path : Str}
    {c : Condition}
    (h : loadEscrowData P (J.serde (Condition.fromJson C)).fromStr path = .ok c) :
    c.UsizeThresholds := by
  obtain ⟨-, expanded, -, -, hparse⟩ := loadEscrowData_eq_ok.mp h
  obtain ⟨v, -, hv⟩ := bind_eq_ok.mp hparse
  exact (Condition.of_readNested (mapError_eq_ok.mp hv)).1

theorem Script.usizeThresholds {C : Codecs} {W : FileWriter} {J : JsonText} {P P' : Process}
    {saved : List (Str × Condition)} (h : Script C W (J.serde (Condition.fromJson C)) P saved P') :
    ∀ e ∈ saved, e.2.UsizeThresholds := by
  induction h with
  | start => exact List.forall_mem_nil _
  | step h envVar cmd hcmd ih =>
    refine List.forall_mem_cons.mpr ⟨?_, ih⟩
    obtain ⟨hcond, -⟩ := handleGenerateCmd_eq_ok hcmd
    refine GenerateCmd.condition_induction (motive := Condition.UsizeThresholds) hcond
      (fun s ↦ .hashlock _) (fun e ↦ .ed25519 e) (fun s ↦ .secp256k1 s) fun n cs hcs ↦ ?_
    refine .threshold n.toNat_lt fun c hc ↦ ?_
    obtain ⟨path, hload⟩ := hcs c hc
    exact usizeThresholds_of_load hload

theorem Script.hashlocksOpen {C : Codecs} (hC : C.Standard) {W : FileWriter} {J : JsonText}
    {P P' : Process} {saved : List (Str × Condition)}
    (h : Script C W (J.serde (Condition.fromJson C)) P saved P')
    (hjson : ∀ e ∈ saved, ∀ j, e.2.toJson C = .ok j → J.Inverts j)
    (hno : ∀ e ∈ saved, ∀ s ∈ e.2.texts, NoReference s)
    (hstart : P.LoadsOpen C.toCrates (J.serde (Condition.fromJson C)).fromStr) :
    ∀ e ∈ saved, e.2.HashlocksOpen C.toCrates := by
  induction h with
  | start => exact List.forall_mem_nil _
  | @step saved P₁ P₂ h envVar cmd c hcmd ih =>
    obtain ⟨-, hjson'⟩ := List.forall_mem_cons.mp hjson
    obtain ⟨-, hno'⟩ := List.forall_mem_cons.mp hno
    have hsaved := ih hjson' hno'
    have hopen₁ : P₁.LoadsOpen C.toCrates (J.serde (Condition.fromJson C)).fromStr :=
      h.filesHold.loadsOpen hC hjson' hno' h.usizeThresholds hsaved hstart
    refine List.forall_mem_cons.mpr ⟨?_, hsaved⟩
    obtain ⟨hcond, -⟩ := handleGenerateCmd_eq_ok hcmd
    refine GenerateCmd.condition_induction (motive := Condition.HashlocksOpen C.toCrates) hcond
      (fun s ↦ .hashlock (Condition.satisfied_hashlock.mpr rfl)) (fun e ↦ .ed25519 e)
      (fun s ↦ .secp256k1 s) fun n cs hcs ↦ ?_
    refine .threshold fun c hc ↦ ?_
    obtain ⟨path, hload⟩ := hcs c hc
    exact hopen₁ envVar path c hload

/-- **What a script of `generate` commands leaves.** In an environment of its own for each command
and for each loading: a file that was not written is as before, a file that was written is loaded as
the condition that was last saved in it, unless that is nested too deep, and as nothing else; and if
at the start only conditions with open hashlocks could be loaded, so it is at the end. No text that
is saved may hold the start of a reference. -/
theorem generated_files {C : Codecs} (hC : C.Standard) {W : FileWriter} {J : JsonText}
    {P P' : Process} {saved : List (Str × Condition)}
    (h : Script C W (J.serde (Condition.fromJson C)) P saved P')
    (hjson : ∀ e ∈ saved, ∀ j, e.2.toJson C = .ok j → J.Inverts j)
    (hno : ∀ e ∈ saved, ∀ s ∈ e.2.texts, ¬['$', '{'] <:+: s) :
    (∀ path, lastSaved saved path = none → P'.readToString path = P.readToString path) ∧
    (∀ path c, lastSaved saved path = some c → ∀ envVar c',
      loadEscrowData { P' with envVar := envVar } (J.serde (Condition.fromJson C)).fromStr path
        = .ok c' ↔ c' = c ∧ c.jsonDepth ≤ recursionLimit) ∧
    (P.LoadsOpen C.toCrates (J.serde (Condition.fromJson C)).fromStr →
      P'.LoadsOpen C.toCrates (J.serde (Condition.fromJson C)).fromStr) := by
  have hfiles := h.filesHold
  have husize := h.usizeThresholds
  exact ⟨hfiles.unchanged, fun path c hpath envVar c' ↦ hfiles.load_iff hC hjson hno husize hpath,
    fun hstart ↦ hfiles.loadsOpen hC hjson hno husize (h.hashlocksOpen hC hjson hno hstart) hstart⟩

/-- One file can be read, and it is empty. -/
def Process.preimageSample : Process where
  cargoManifestDir := []
  readToString path := if path = ['s'] then .ok [] else .error "No such file or directory"
  envVar _ := none

/-- The hashlock on the empty preimage. -/
def Condition.emptyHashlock : Condition :=
  .hashlock ⟨Codecs.sample.sha256 (Utf8.encode []), Utf8.encode []⟩

def emptyHashlockJson : Json :=
  taggedJson "hashlock" (jsonObject
    [("hash", hexJson .sample (Codecs.sample.sha256 (Utf8.encode [])).1), ("preimage", .string [])])

theorem Condition.toJson_emptyHashlock :
    emptyHashlock.toJson .sample = .ok emptyHashlockJson := by
  rw [emptyHashlock, toJson, Hashlock.toJson, Utf8.decode_eq_some.mpr rfl]
  rfl

/-- A threshold over it. -/
def Condition.nestedHashlock : Condition := .threshold 1 [emptyHashlock]

def nestedHashlockJson : Json :=
  taggedJson "threshold" (jsonObject
    [("threshold", jsonNat 1), ("subconditions", .array [emptyHashlockJson])])

theorem Condition.toJson_nestedHashlock :
    nestedHashlock.toJson .sample = .ok nestedHashlockJson := by
  rw [nestedHashlock, toJson, toJsons, toJson_emptyHashlock]
  rfl

theorem Condition.noReference_nestedHashlock :
    (∀ s ∈ emptyHashlock.texts, NoReference s) ∧ ∀ s ∈ nestedHashlock.texts, NoReference s := by
  have htexts : emptyHashlock.texts = [[]] := by
    rw [emptyHashlock, texts, Utf8.decode_eq_some.mpr rfl]
    rfl
  simp [nestedHashlock, texts, allTexts, htexts, NoReference]

def JsonText.hashlockSample : JsonText := .sample [emptyHashlockJson, nestedHashlockJson]

theorem JsonText.inverts_hashlockSample :
    hashlockSample.Inverts emptyHashlockJson ∧ hashlockSample.Inverts nestedHashlockJson := by
  have hne : emptyHashlockJson.pretty 0 ≠ nestedHashlockJson.pretty 0 := fun h ↦
    absurd (congrArg (fun s ↦ s[20]?) h) (by decide +kernel)
  constructor
  · exact inverts_sample ((Condition.depth_toJson Condition.toJson_emptyHashlock).trans_le
      (by decide)) (by simp)
  · exact inverts_sample ((Condition.depth_toJson Condition.toJson_nestedHashlock).trans_le
      (by decide)) (by simp [hne])

theorem Process.loadsOpen_preimageSample :
    preimageSample.LoadsOpen Codecs.sample.toCrates
      (JsonText.hashlockSample.serde (Condition.fromJson .sample)).fromStr := by
  intro envVar path c h
  obtain ⟨content, expanded, hcontent, hexpand, hparse⟩ := loadEscrowData_eq_ok.mp h
  have hempty : content = [] := by
    simp only [preimageSample] at hcontent
    split at hcontent
    · exact (Except.ok.inj hcontent).symm
    · cases hcontent
  have hsame : expandEnvChecked { preimageSample with envVar := envVar } content = .ok [] := by
    subst hempty
    exact expandEnvChecked_of_noReference (by simp [NoReference])
  obtain rfl := Except.ok.inj (hsame.symm.trans hexpand)
  obtain ⟨v, hv, -⟩ := bind_eq_ok.mp hparse
  have hunknown : JsonText.hashlockSample.parse [] = .error "unexpected text" := rfl
  cases hunknown.symm.trans hv

theorem exists_handleGenerateCmd {P : Process} {J : SerdeJson Condition} (cmd : GenerateCmd)
    {c : Condition} {j : Json} (hc : cmd.condition .sample P J.fromStr = .ok c)
    (hj : c.toJson .sample = .ok j) :
    ∃ P', handleGenerateCmd .sample P .sample J cmd = .ok (P', c) := by
  rw [handleGenerateCmd, hc, ok_bind, saveEscrowData, hj]
  exact ⟨_, rfl⟩

theorem generated_files_sample :
    ∃ P', Script .sample .sample (JsonText.hashlockSample.serde (Condition.fromJson .sample))
        .preimageSample [(['t'], .nestedHashlock), (['o'], .emptyHashlock)] P' ∧
      loadEscrowData P' (JsonText.hashlockSample.serde (Condition.fromJson .sample)).fromStr ['t']
        = .ok .nestedHashlock ∧
      P'.LoadsOpen Codecs.sample.toCrates
        (JsonText.hashlockSample.serde (Condition.fromJson .sample)).fromStr := by
  obtain ⟨hJ, hJ'⟩ := JsonText.inverts_hashlockSample
  obtain ⟨hno, hno'⟩ := Condition.noReference_nestedHashlock
  obtain ⟨P₁, hP₁⟩ := exists_handleGenerateCmd (P := .preimageSample)
    (J := JsonText.hashlockSample.serde (Condition.fromJson .sample))
    (.hashlock ['s'] ['o']) rfl Condition.toJson_emptyHashlock
  have hstart := Script.step (.start (P := .preimageSample)) Process.preimageSample.envVar _ hP₁
  obtain ⟨-, j, hj, hfiles⟩ := handleGenerateCmd_eq_ok hP₁
  obtain rfl := Except.ok.inj (Condition.toJson_emptyHashlock.symm.trans hj)
  have hload : loadEscrowData P₁
      (JsonText.hashlockSample.serde (Condition.fromJson .sample)).fromStr ['o']
        = .ok .emptyHashlock :=
    (loadEscrowData_printed hJ
      ((Condition.all_toJson Codecs.standard_sample Condition.toJson_emptyHashlock).mpr hno)
      (Condition.fromJson_toJson Codecs.standard_sample (.hashlock _)
        Condition.toJson_emptyHashlock)
      (by rw [hfiles]; rfl)).mpr ⟨rfl, by decide⟩
  obtain ⟨P₂, hP₂⟩ := exists_handleGenerateCmd (P := P₁)
    (J := JsonText.hashlockSample.serde (Condition.fromJson .sample))
    (.threshold [['o']] 1 ['t']) (c := .nestedHashlock)
    (by rw [GenerateCmd.condition, loadConditions, hload]; rfl) Condition.toJson_nestedHashlock
  have hscript := hstart.step P₁.envVar _ hP₂
  obtain ⟨-, hwritten, hopen⟩ := generated_files Codecs.standard_sample hscript
    (List.forall_mem_cons.mpr
      ⟨fun j' hj' ↦ Except.ok.inj (Condition.toJson_nestedHashlock.symm.trans hj') ▸ hJ',
        List.forall_mem_singleton.mpr fun j' hj' ↦ Except.ok.inj (hj.symm.trans hj') ▸ hJ⟩)
    (List.forall_mem_cons.mpr ⟨hno', List.forall_mem_singleton.mpr hno⟩)
  exact ⟨P₂, hscript, (hwritten ['t'] .nestedHashlock rfl P₂.envVar _).mpr ⟨rfl, by decide⟩,
    hopen Process.loadsOpen_preimageSample⟩

end Zescrow
