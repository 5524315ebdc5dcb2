import Zescrow.Client.Commands
import Zescrow.Foundation.Checkpoint

/-!
# Sessions

Between a creation and the settlement of its escrow anything may happen: other commands, changes of
files and of the environment, and whatever else is going on on the chain. As long as the metadata
and the conditions stay in their files, the settlement is of the escrow that was created, and
proves the condition it was created with.
-/

open Foundation Foundation.Serde

namespace Zescrow

/-- What happens in a session: a command of the client, a change of a file or of the environment,
and whatever happens on the chain. -/
inductive SessionEvent (σ : Type) where
  | execute (A : Agents σ) (command : Commands)
  | edit (path : Str) (content : Except String Str)
  | setEnv (envVar : Str → Option Str)
  | advance (f : σ → σ)

section

variable {σ : Type}

def Session.step (T : CommandLine) (S : Session σ) : SessionEvent σ → Session σ
  | .execute A command => (T.execute A command S).2
  | .edit path content => { S with process := S.process.write path content }
  | .setEnv envVar => { S with process := { S.process with envVar := envVar } }
  | .advance f => { S with chain := f S.chain }

/-- The session after some events. -/
abbrev Session.run (T : CommandLine) (S : Session σ) (events : List (SessionEvent σ)) : Session σ :=
  Foundation.run (Session.step T) S events

/-- Whatever the agent does, the chain is moved as `R` says. -/
structure Agent.Within (R : σ → σ → Prop) (a : Agent σ) : Prop where
  createEscrow : ∀ params condition, (a.createEscrow params condition).Keeps R
  finishEscrow : ∀ metadata proof, (a.finishEscrow metadata proof).Keeps R
  cancelEscrow : ∀ metadata, (a.cancelEscrow metadata).Keeps R

/-- The event moves the chain as `R` says. -/
def SessionEvent.Within (R : σ → σ → Prop) : SessionEvent σ → Prop
  | .execute A _ => ∀ config recipient client, A.build config recipient = .ok client →
    client.Within R
  | .advance f => ∀ chain, R chain (f chain)
  | _ => True

/-- The event writes neither the metadata nor the conditions. -/
def SessionEvent.Spares (P : Process) : SessionEvent σ → Prop
  | .execute _ .create => False
  | .execute _ (.generate cmd) =>
    cmd.output ≠ P.escrowMetadataPath ∧ cmd.output ≠ P.escrowConditionsPath
  | .edit path _ => path ≠ P.escrowMetadataPath ∧ path ≠ P.escrowConditionsPath
  | _ => True

end

/-! ## What stays -/

namespace CommandLine

section

variable {σ β : Type} {T : CommandLine} {A : Agents σ} {S S' : Session σ}

/-- A file reads as before, and lies where it lay. -/
structure SameFile (path : Str) (S S' : Session σ) : Prop where
  dir : S'.process.cargoManifestDir = S.process.cargoManifestDir
  file : S'.process.readToString path = S.process.readToString path

theorem SameFile.refl (path : Str) (S : Session σ) : SameFile path S S := ⟨rfl, rfl⟩

theorem SameFile.trans {path : Str} {S S₁ S₂ : Session σ} (h : SameFile path S S₁)
    (h' : SameFile path S₁ S₂) : SameFile path S S₂ :=
  ⟨h'.dir.trans h.dir, h'.file.trans h.file⟩

/-- What stays where it lay is found there. -/
theorem SameFile.paths {path : Str} (h : SameFile path S S') :
    S'.process.escrowMetadataPath = S.process.escrowMetadataPath ∧
      S'.process.escrowConditionsPath = S.process.escrowConditionsPath := by
  rw [Process.escrowMetadataPath, Process.escrowConditionsPath, h.dir]
  exact ⟨rfl, rfl⟩

theorem sameFile_write {path path' : Str} (hne : path' ≠ path) (content : Except String Str)
    (chain : σ) : SameFile path S ⟨S.process.write path' content, chain⟩ :=
  ⟨rfl, Process.read_write_of_ne _ (Ne.symm hne) _⟩

theorem saveEscrowData_write {J : SerdeJson β} {toJson : β → Except String Json} {P P' : Process}
    {path : Str} {v : β} (h : saveEscrowData P T.writer J toJson path v = .ok P') :
    ∃ j, toJson v = .ok j ∧ P' = P.write path (.ok (J.toStringPretty j)) := by
  simp only [saveEscrowData, bind_eq_ok, mapError_eq_ok] at h
  obtain ⟨-, -, j, hj, -, -, hP⟩ := h
  exact ⟨j, hj, (Except.ok.inj hP).symm⟩

theorem keeps_save {path : Str} {J : SerdeJson β} {toJson : β → Except String Json}
    {path' : Process → Str} (hne : ∀ P, path' P ≠ path) (v : β) :
    Effect.Keeps (SameFile (σ := σ) path) (T.save J toJson path' v) := by
  intro S
  rw [save]
  split
  · next P hP =>
    obtain ⟨j, -, rfl⟩ := saveEscrowData_write hP
    exact sameFile_write (hne _) _ _
  · exact .refl path S
  · exact sameFile_write (hne _) _ _

theorem keeps_onChain (path : Str) (x : Effect σ ClientError β) :
    Effect.Keeps (SameFile path) (onChain x) := fun _ ↦ ⟨rfl, rfl⟩

theorem keeps_execute {path : Str} {command : Commands}
    (h : command = .cancel ∨ (∃ recipient, command = .finish recipient) ∨
      ∃ cmd, command = .generate cmd ∧ cmd.output ≠ path) :
    Effect.Keeps (SameFile path) (T.execute A command) := by
  have hbind {α γ : Type} {x : Effect (Session σ) CommandError α}
      {f : α → Effect (Session σ) CommandError γ} (hx : Effect.Keeps (SameFile path) x)
      (hf : ∀ a, Effect.Keeps (SameFile path) (f a)) : Effect.Keeps (SameFile path) (x >>= f) :=
    hx.bind (fun _ _ _ ↦ .trans) fun a _ _ _ ↦ hf a
  have hread {α : Type} (f : Session σ → Except CommandError α) :
      Effect.Keeps (SameFile path) (.read f) := Effect.keeps_read (SameFile.refl path) f
  rcases h with rfl | ⟨recipient, rfl⟩ | ⟨cmd, rfl, hne⟩
  · exact hbind (hread _) fun metadata ↦ hbind (hread _) fun client ↦ keeps_onChain _ _
  · exact hbind (hread _) fun metadata ↦ hbind (hread _) fun client ↦ hbind (hread _) fun proof ↦
      keeps_onChain _ _
  · exact hbind (hread _) fun cond ↦ keeps_save (fun _ ↦ hne) cond

theorem sameFile_step {e : SessionEvent σ} (h : e.Spares S.process) :
    SameFile S.process.escrowMetadataPath S (S.step T e) ∧
      SameFile S.process.escrowConditionsPath S (S.step T e) := by
  cases e with
  | execute A command =>
    cases command with
    | create => exact h.elim
    | finish recipient =>
      exact ⟨keeps_execute (.inr (.inl ⟨_, rfl⟩)) S, keeps_execute (.inr (.inl ⟨_, rfl⟩)) S⟩
    | cancel => exact ⟨keeps_execute (.inl rfl) S, keeps_execute (.inl rfl) S⟩
    | generate cmd =>
      exact ⟨keeps_execute (.inr (.inr ⟨_, rfl, h.1⟩)) S,
        keeps_execute (.inr (.inr ⟨_, rfl, h.2⟩)) S⟩
  | edit path content => exact ⟨sameFile_write h.1 _ _, sameFile_write h.2 _ _⟩
  | setEnv envVar => exact ⟨⟨rfl, rfl⟩, ⟨rfl, rfl⟩⟩
  | advance f => exact ⟨⟨rfl, rfl⟩, ⟨rfl, rfl⟩⟩

theorem sameFile_run {events : List (SessionEvent σ)}
    (h : Along (Session.step T) (fun S e ↦ e.Spares S.process) S events) :
    SameFile S.process.escrowMetadataPath S (S.run T events) ∧
      SameFile S.process.escrowConditionsPath S (S.run T events) := by
  refine run_along (I := fun S' ↦ SameFile S.process.escrowMetadataPath S S' ∧
    SameFile S.process.escrowConditionsPath S S') (fun S' e hspares ⟨hmetadata, hconditions⟩ ↦ ?_)
    ⟨.refl _ _, .refl _ _⟩ h
  obtain ⟨hmetadata', hconditions'⟩ := sameFile_step (T := T) hspares
  obtain ⟨hpath, hpath'⟩ := hmetadata.paths
  rw [hpath] at hmetadata'
  rw [hpath'] at hconditions'
  exact ⟨hmetadata.trans hmetadata', hconditions.trans hconditions'⟩

theorem escrowMetadataPath_ne (P : Process) : P.escrowMetadataPath ≠ P.escrowConditionsPath := by
  rw [Process.escrowMetadataPath, Process.escrowConditionsPath, Ne, List.append_cancel_left_eq]
  decide

theorem load_metadata {P : Process} {chain : σ} {metadata : EscrowMetadata}
    (hparse : ∀ n, T.parseBytes (Decimal.numeral n) = some n)
    (hsave : saveEscrowData S.process T.writer T.metadata (fun m ↦ .ok m.toJson)
      S.process.escrowMetadataPath metadata = .ok P)
    (hJ : T.json.Inverts metadata.toJson) (hno : ∀ s ∈ metadata.texts, NoReference s)
    (hsame : SameFile S.process.escrowMetadataPath ⟨P, chain⟩ S') :
    loadEscrowData S'.process T.metadata.fromStr S'.process.escrowMetadataPath = .ok metadata := by
  obtain ⟨j, hj, rfl⟩ := saveEscrowData_write hsave
  obtain rfl := Except.ok.inj hj
  have hpath : S'.process.escrowMetadataPath = S.process.escrowMetadataPath := hsame.paths.1
  have hdepth : metadata.toJson.depth ≤ recursionLimit := metadata.depth_toJson_le.trans (by decide)
  have hread := EscrowMetadata.fromJson_toJson hparse metadata
  rw [hpath]
  refine (loadEscrowData_printed hJ (metadata.all_toJson.mpr hno) hread ?_).mpr ⟨rfl, hdepth⟩
  rw [hsame.file]
  exact Process.read_write_self _ _ _

/-- What a creation has committed to is the condition that is found later on, in a file that is its
own expansion. -/
theorem fromMetadata_of_same {fromStr : Str → Except String Condition} {params : EscrowParams}
    {condition : Option (FixedBytes 32)} {metadata : EscrowMetadata} {K : Crates}
    (hcondition : releaseCondition K S.process fromStr params = .ok condition)
    (hparams : metadata.params = params) (hexpand : SelfExpanding S.process)
    (hsame : SameFile S.process.escrowConditionsPath S S') (hcond : params.hasConditions = true) :
    ∃ k, loadEscrowData S.process fromStr S.process.escrowConditionsPath = .ok k ∧
      condition = some (k.commitment K) ∧
      Escrow.fromMetadata S'.process fromStr metadata = .ok (metadata.escrow k) := by
  rw [releaseCondition, if_neg (not_not_intro hcond), bind_eq_ok] at hcondition
  obtain ⟨k, hload, hk⟩ := hcondition
  refine ⟨k, hload, (Except.ok.inj hk).symm, ?_⟩
  obtain ⟨text, expanded, hread, hexpanded, hfrom⟩ := loadEscrowData_eq_ok.mp hload
  rw [expandEnvChecked_eq_self (hexpand text hread)] at hexpanded
  obtain rfl := Except.ok.inj hexpanded
  refine (Escrow.fromMetadata_eq_ok (hparams ▸ hcond)).mpr ⟨text, k, ?_, hfrom, rfl⟩
  rw [hsame.paths.2, hsame.file, hread]

/-- Commands move the chain as their agents do. -/
theorem keepsChain_execute {R : σ → σ → Prop} (hrefl : ∀ c, R c c)
    (htrans : ∀ c c₁ c₂, R c c₁ → R c₁ c₂ → R c c₂)
    (hA : ∀ config recipient client, A.build config recipient = .ok client → client.Within R)
    (command : Commands) :
    Effect.Keeps (fun S S' : Session σ ↦ R S.chain S'.chain) (T.execute A command) := by
  have hbind {α γ : Type} {x : Effect (Session σ) CommandError α}
      {f : α → Effect (Session σ) CommandError γ} :=
    @Effect.Keeps.bind _ _ _ _ (fun S S' : Session σ ↦ R S.chain S'.chain)
      (fun _ _ _ ↦ htrans _ _ _) x f
  have hread {α : Type} (f : Session σ → Except CommandError α) :
      Effect.Keeps (fun S S' : Session σ ↦ R S.chain S'.chain) (.read f) :=
    Effect.keeps_read (fun S ↦ hrefl S.chain) f
  have hchain {α : Type} {x : Effect σ ClientError α} (h : x.Keeps R) :
      Effect.Keeps (fun S S' : Session σ ↦ R S.chain S'.chain) (onChain x) := fun S ↦ h S.chain
  have hsave {α : Type} (J : SerdeJson α) toJson path v :
      Effect.Keeps (fun S S' : Session σ ↦ R S.chain S'.chain) (T.save J toJson path v) := by
    intro S
    rw [save]
    split <;> exact hrefl S.chain
  have hbuild {config : ChainConfig} {recipient : Option Str} {S S' : Session σ}
      {client : Agent σ} (h : build A config recipient S = (.ok client, S')) : client.Within R :=
    hA config recipient client (read_mapError_eq_ok.mp h).1
  cases command with
  | create =>
    refine hbind (hread _) fun params _ _ _ ↦ hbind (hread _) fun client _ _ hclient ↦ ?_
    refine hbind (hread _) fun condition _ _ _ ↦ ?_
    exact hbind (hchain ((hbuild hclient).createEscrow _ _)) fun metadata _ _ _ ↦ hsave _ _ _ _
  | finish recipient =>
    refine hbind (hread _) fun metadata _ _ _ ↦ hbind (hread _) fun client _ _ hclient ↦ ?_
    exact hbind (hread _) fun proof _ _ _ ↦ hchain ((hbuild hclient).finishEscrow _ _)
  | cancel =>
    refine hbind (hread _) fun metadata _ _ _ ↦ hbind (hread _) fun client _ _ hclient ↦ ?_
    exact hchain ((hbuild hclient).cancelEscrow _)
  | generate cmd => exact hbind (hread _) fun cond _ _ _ ↦ hsave _ _ _ _

/-- Whatever happens in a session, the chain is moved as `R` says if every event moves it so. -/
theorem chain_run {R : σ → σ → Prop} (hrefl : ∀ c, R c c)
    (htrans : ∀ c c₁ c₂, R c c₁ → R c₁ c₂ → R c c₂) {events : List (SessionEvent σ)}
    (h : ∀ e ∈ events, e.Within R) : R S.chain (S.run T events).chain := by
  induction events generalizing S with
  | nil => exact hrefl S.chain
  | cons e events ih =>
    obtain ⟨he, hevents⟩ := List.forall_mem_cons.mp h
    refine htrans _ _ _ ?_ (ih hevents)
    cases e with
    | execute A command => exact keepsChain_execute hrefl htrans he command S
    | edit path content => exact hrefl S.chain
    | setEnv envVar => exact hrefl S.chain
    | advance f => exact he S.chain

/-- After a creation and events that spare them, the metadata are in their file, and the conditions
are still in theirs. -/
theorem sameFile_of_created {P : Process} {chain : σ} {metadata : EscrowMetadata}
    (hsave : saveEscrowData S.process T.writer T.metadata (fun m ↦ .ok m.toJson)
      S.process.escrowMetadataPath metadata = .ok P) {events : List (SessionEvent σ)}
    (h : Along (Session.step T) (fun S e ↦ e.Spares S.process) ⟨P, chain⟩ events) :
    SameFile S.process.escrowMetadataPath ⟨P, chain⟩ (Session.run T ⟨P, chain⟩ events) ∧
      SameFile S.process.escrowConditionsPath S (Session.run T ⟨P, chain⟩ events) := by
  obtain ⟨hmetadata, hconditions⟩ := sameFile_run h
  obtain ⟨j, -, rfl⟩ := saveEscrowData_write hsave
  exact ⟨hmetadata, (sameFile_write (escrowMetadataPath_ne _) _ _).trans hconditions⟩

end

end CommandLine

/-! ## From a creation to its settlement -/

section

variable {σ : Type} {T : CommandLine} {A : Agents σ} {S S₁ : Session σ}

/-- **What a creation leaves to the commands after it.** A creation that succeeds has had the agent
create the escrow of the parameters file with the commitment of the conditions file, and has saved
what the agent returned. If none of its strings looks like a reference, then after any events that
spare the metadata and the conditions, `finish` and `cancel` settle that escrow, and what `finish`
proves is the condition that was committed to, provided the conditions file was its own expansion. A
creation that fails has done nothing, or what the agent has done by the time it failed, or all but
save the metadata. -/
theorem creation_in_session (hparse : ∀ n, T.parseBytes (Decimal.numeral n) = some n)
    {r : Except CommandError Unit} (h : T.execute A .create S = (r, S₁)) :
    (r = .ok () → ∃ params client condition metadata,
      loadEscrowData S.process T.params.fromStr S.process.escrowParamsPath = .ok params ∧
      A.build params.chainConfig none = .ok client ∧
      releaseCondition T.codecs.toCrates S.process T.conditions.fromStr params = .ok condition ∧
      client.createEscrow params condition S.chain = (.ok metadata, S₁.chain) ∧
      (T.json.Inverts metadata.toJson → (∀ s ∈ metadata.texts, ¬['$', '{'] <:+: s) →
        ∀ events, Along (Session.step T) (fun S e ↦ e.Spares S.process) S₁ events →
          let S₂ := S₁.run T events
          (∀ A' key, T.execute A' (.finish key) S₂ = T.finish A' key metadata S₂) ∧
          (∀ A', T.execute A' .cancel S₂ = CommandLine.cancel A' metadata S₂) ∧
          (metadata.params = params → SelfExpanding S.process → ∀ input,
            releaseProofInput T.codecs S₂.process T.conditions.fromStr metadata
              = .ok (some input) →
            condition = input.escrow.condition.map fun k ↦ k.commitment T.codecs.toCrates))) ∧
    ∀ e, r = .error e → S₁ = S ∨ ∃ params client condition,
      loadEscrowData S.process T.params.fromStr S.process.escrowParamsPath = .ok params ∧
      A.build params.chainConfig none = .ok client ∧
      releaseCondition T.codecs.toCrates S.process T.conditions.fromStr params = .ok condition ∧
      ((S₁.process = S.process ∧ ∃ e',
          client.createEscrow params condition S.chain = (.error e', S₁.chain) ∧ e = .client e') ∨
        ∃ metadata e', client.createEscrow params condition S.chain = (.ok metadata, S₁.chain) ∧
          e = .saving e') := by
  constructor
  · rintro rfl
    obtain ⟨params, client, condition, metadata, chain, P, hparams, hclient, hcondition, hcreate,
      hsave, rfl⟩ := CommandLine.create_eq_ok.mp h
    refine ⟨params, client, condition, metadata, hparams, hclient, hcondition, hcreate,
      fun hJ hno events hevents ↦ ?_⟩
    obtain ⟨hmetadata, hconditions⟩ := CommandLine.sameFile_of_created hsave hevents
    have hload := CommandLine.load_metadata hparse hsave hJ hno hmetadata
    refine ⟨fun A' ↦ (CommandLine.execute_of_metadata hload).1,
      fun A' ↦ (CommandLine.execute_of_metadata hload).2, fun hsame hexpand input hinput ↦ ?_⟩
    obtain ⟨hcond, agentId, escrow, -, hescrow, rfl⟩ := releaseProofInput_eq_ok.mp hinput
    obtain ⟨k, -, hk, hescrow'⟩ := CommandLine.fromMetadata_of_same hcondition hsame hexpand
      hconditions (hsame ▸ hcond)
    obtain rfl := Except.ok.inj (hescrow'.symm.trans hescrow)
    exact hk
  · rintro e rfl
    exact CommandLine.create_eq_error h

end

/-! ## A sample session -/

def Condition.sampleJson : Json :=
  taggedJson "hashlock" (jsonObject
    [("hash", hexJson .sample (Codecs.sample.sha256 (ascii "secret")).1),
      ("preimage", .string "secret".toList)])

theorem Condition.decode_sample : Utf8.decode (ascii "secret") = some "secret".toList :=
  Utf8.decode_eq_some.mpr (by decide)

theorem Condition.toJson_sample : Condition.sample.toJson .sample = .ok sampleJson := by
  rw [Condition.sample, toJson, Hashlock.toJson, decode_sample]
  rfl

/-- The metadata of the sample escrow. -/
def EscrowMetadata.created : EscrowMetadata := ⟨hexParams .native, .funded, some 1⟩

theorem EscrowMetadata.noReference_created : ∀ s ∈ created.texts, NoReference s := by
  have hdollar : created.texts.Forall fun s ↦ '$' ∉ s := by decide
  exact fun s hs ↦ noReference_of_not_mem (List.forall_iff_forall_mem.mp hdollar s hs)

/-- The JSON texts of the sample escrow are known. -/
def JsonText.sessionSample : JsonText :=
  .sample [(hexParams .native).toJson, EscrowMetadata.created.toJson, Condition.sampleJson]

theorem JsonText.inverts_sessionSample :
    sessionSample.Inverts (hexParams .native).toJson ∧
      sessionSample.Inverts EscrowMetadata.created.toJson ∧
      sessionSample.Inverts Condition.sampleJson := by
  -- The three texts differ in their first key.
  have hparams : (hexParams .native).toJson.pretty 0 ≠ EscrowMetadata.created.toJson.pretty 0 :=
    fun h ↦ absurd (congrArg (fun s ↦ s[5]?) h) (by decide +kernel)
  have hparams' : (hexParams .native).toJson.pretty 0 ≠ Condition.sampleJson.pretty 0 :=
    fun h ↦ absurd (congrArg (fun s ↦ s[6]?) h) (by decide +kernel)
  have hmetadata : EscrowMetadata.created.toJson.pretty 0 ≠ Condition.sampleJson.pretty 0 :=
    fun h ↦ absurd (congrArg (fun s ↦ s[5]?) h) (by decide +kernel)
  refine ⟨inverts_sample (by decide +kernel) ?_,
    inverts_sample (EscrowMetadata.created.depth_toJson_le.trans (by decide)) ?_,
    inverts_sample ((Condition.depth_toJson Condition.toJson_sample).trans_le (by decide)) ?_⟩
  · simp
  · simp [hparams]
  · simp [hparams', hmetadata]

def CommandLine.sample : CommandLine where
  codecs := .sample
  json := .sessionSample
  parseBytes := parseDecimal
  writer := .sample
  leftover := .error "No such file or directory"
  zkVm := .sample Codecs.sample.toCrates

/-- The parameters and the conditions are in their files. -/
def Process.sessionSample : Process :=
  (Process.bare.write Process.bare.escrowParamsPath
    (.ok (JsonText.sessionSample.toStringPretty (hexParams .native).toJson))).write
      Process.bare.escrowConditionsPath
      (.ok (JsonText.sessionSample.toStringPretty Condition.sampleJson))

theorem Process.read_sessionSample :
    sessionSample.readToString sessionSample.escrowParamsPath =
        .ok (JsonText.sessionSample.toStringPretty (hexParams .native).toJson) ∧
      sessionSample.readToString sessionSample.escrowConditionsPath =
        .ok (JsonText.sessionSample.toStringPretty Condition.sampleJson) := by
  have hne : Process.bare.escrowParamsPath ≠ Process.bare.escrowConditionsPath := by decide
  exact ⟨(Process.read_write_of_ne _ hne _).trans (Process.read_write_self _ _ _),
    Process.read_write_self _ _ _⟩

theorem Condition.noReference_sample : ∀ s ∈ Condition.sample.texts, NoReference s := by
  rw [Condition.sample, texts, decode_sample]
  exact List.forall_mem_singleton.mpr (noReference_of_not_mem (by decide))

theorem CommandLine.loads_sample :
    loadEscrowData .sessionSample CommandLine.sample.params.fromStr
      Process.sessionSample.escrowParamsPath = .ok (hexParams .native) ∧
    loadEscrowData .sessionSample CommandLine.sample.conditions.fromStr
      Process.sessionSample.escrowConditionsPath = .ok Condition.sample ∧
    SelfExpanding .sessionSample := by
  obtain ⟨hparams, -, hcondition⟩ := JsonText.inverts_sessionSample
  obtain ⟨hread, hread'⟩ := Process.read_sessionSample
  have hno : (hexParams .native).toJson.All NoReference :=
    (all_jsonObject (by simp)).mp
      (EscrowMetadata.created.all_toJson.mpr EscrowMetadata.noReference_created)
      ("params", (hexParams .native).toJson) List.mem_cons_self
  have hno' := (Condition.all_toJson Codecs.standard_sample Condition.toJson_sample).mpr
    Condition.noReference_sample
  refine ⟨?_, ?_, fun text htext name hname ↦ ?_⟩
  · exact (loadEscrowData_printed hparams hno (EscrowParams.fromJson_toJson parseDecimal_numeral _)
      hread).mpr ⟨rfl, by decide +kernel⟩
  · exact (loadEscrowData_printed hcondition hno'
      (Condition.fromJson_toJson Codecs.standard_sample (.hashlock _) Condition.toJson_sample)
      hread').mpr ⟨rfl, (Condition.depth_toJson Condition.toJson_sample).trans_le (by decide)⟩
  · obtain rfl := Except.ok.inj (hread'.symm.trans htext)
    have hnone := (hcondition.text.avoids_iff inner_verbatim).mpr hno'
    rw [template, Template.parse_of_no_opening (splitOnce_eq_none.mpr hnone)] at hname
    exact absurd hname List.not_mem_nil

/-- The one escrow, and whether it is settled. -/
def Agent.sample : Agent Bool where
  createEscrow params _ := fun _ ↦ (.ok ⟨params, .funded, some 1⟩, false)
  finishEscrow _ _ := fun _ ↦ (.ok (), true)
  cancelEscrow _ := fun _ ↦ (.ok (), true)

def Agents.sample : Agents Bool where
  ethereum _ _ := .ok .sample
  solana _ _ := .ok .sample

theorem CommandLine.releaseCondition_sample :
    releaseCondition Codecs.sample.toCrates .sessionSample CommandLine.sample.conditions.fromStr
      (hexParams .native) = .ok (some (Condition.sample.commitment Codecs.sample.toCrates)) := by
  have hcond : (hexParams .native).hasConditions = true := rfl
  rw [releaseCondition, if_neg (not_not_intro hcond), CommandLine.loads_sample.2.1]
  rfl

theorem creation_in_session_sample :
    ∃ S₁, CommandLine.sample.execute .sample .create ⟨.sessionSample, true⟩ = (.ok (), S₁) ∧
      ∀ events, Along (Session.step .sample) (fun S e ↦ e.Spares S.process) S₁ events →
        let S₂ := S₁.run .sample events
        CommandLine.sample.execute .sample .cancel S₂ = (.ok (), ⟨S₂.process, true⟩) := by
  obtain ⟨P, hP⟩ : ∃ P, saveEscrowData .sessionSample .sample CommandLine.sample.metadata
      (fun m ↦ .ok m.toJson) Process.sessionSample.escrowMetadataPath EscrowMetadata.created
        = .ok P := ⟨_, rfl⟩
  have hcreate : CommandLine.sample.execute .sample .create ⟨.sessionSample, true⟩
      = (.ok (), ⟨P, false⟩) :=
    CommandLine.create_eq_ok.mpr ⟨_, _, _, _, _, _, CommandLine.loads_sample.1, rfl,
      CommandLine.releaseCondition_sample, rfl, hP, rfl⟩
  obtain ⟨params, client, condition, metadata, hparams, hclient, -, hcreated, hlater⟩ :=
    (creation_in_session parseDecimal_numeral hcreate).1 rfl
  obtain rfl := Except.ok.inj (CommandLine.loads_sample.1.symm.trans hparams)
  obtain rfl : Agent.sample = client := Except.ok.inj hclient
  obtain rfl : EscrowMetadata.created = metadata := Except.ok.inj (congrArg Prod.fst hcreated)
  refine ⟨_, hcreate, fun events hevents ↦ ?_⟩
  exact (hlater JsonText.inverts_sessionSample.2.1 EscrowMetadata.noReference_created events
    hevents).2.1 .sample

end Zescrow
