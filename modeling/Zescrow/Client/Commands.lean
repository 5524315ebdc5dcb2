import Zescrow.Client.Conditions
import Zescrow.Client.Generate
import Zescrow.Client.ReleaseProof
import Zescrow.Foundation.Effect

/-!
# The commands of the client

A command loads what it needs from files, builds the agent of the chain, and has it act. `create`
saves the metadata of the escrow; `finish` and `cancel` find them there, whatever has happened to
the chain, the environment and the other files since. What a command has done before it fails stays
done: an escrow whose metadata cannot be saved exists.
-/

open Foundation Foundation.Serde

namespace Zescrow

/-- A chain-specific agent, over the states of its chain. -/
structure Agent (σ : Type) where
  createEscrow : EscrowParams → Option (FixedBytes 32) → Effect σ ClientError EscrowMetadata
  finishEscrow : EscrowMetadata → Option ReleaseProof → Effect σ ClientError Unit
  cancelEscrow : EscrowMetadata → Effect σ ClientError Unit

/-- How the agents are made: from a configuration and the recipient's key, if one is given. -/
structure Agents (σ : Type) where
  ethereum : ChainConfig → Option Str → Except ClientError (Agent σ)
  solana : ChainConfig → Option Str → Except ClientError (Agent σ)

/-- Builds the client, instantiating the appropriate chain agent. -/
def Agents.build {σ : Type} (A : Agents σ) (config : ChainConfig) (recipient : Option Str) :
    Except ClientError (Agent σ) :=
  match config.chain with
  | .ethereum => A.ethereum config recipient
  | .solana => A.solana config recipient

/-- Default path to escrow parameters configuration. -/
def Process.escrowParamsPath (P : Process) : Str :=
  P.cargoManifestDir ++ "/../deploy/escrow_params.json".toList

/-- Default path to on-chain escrow metadata. -/
def Process.escrowMetadataPath (P : Process) : Str :=
  P.cargoManifestDir ++ "/../deploy/escrow_metadata.json".toList

/-- The process in which a file reads as `content`. -/
def Process.write (P : Process) (path : Str) (content : Except String Str) : Process :=
  { P with readToString := Function.update P.readToString path content }

theorem Process.read_write_self (P : Process) (path : Str) (content : Except String Str) :
    (P.write path content).readToString path = content := Function.update_self _ _ _

theorem Process.read_write_of_ne (P : Process) {path path' : Str} (h : path' ≠ path)
    (content : Except String Str) :
    (P.write path content).readToString path' = P.readToString path' := Function.update_of_ne h _ _

inductive Commands where
  | create
  | finish (recipient : Str)
  | cancel
  | generate (cmd : GenerateCmd)

/-- Errors from a command. -/
inductive CommandError where
  | loading (e : LoadError)
  | saving (e : SaveError)
  | client (e : ClientError)
  | release (e : ReleaseError)
  | generate (e : GenerateError)
  deriving DecidableEq

/-- What a command runs in: the process, and the chain as the agents see it. -/
structure Session (σ : Type) where
  process : Process
  chain : σ

/-- The code a command calls. `leftover` is what a failed write leaves in a file. -/
structure CommandLine where
  codecs : Codecs
  json : JsonText
  parseBytes : Str → Option ℕ
  writer : FileWriter
  leftover : Except String Str
  zkVm : ZkVm

namespace CommandLine

section

variable {σ : Type} (T : CommandLine)

def params : SerdeJson EscrowParams := T.json.serde (EscrowParams.fromJson T.parseBytes)

def metadata : SerdeJson EscrowMetadata := T.json.serde (EscrowMetadata.fromJson T.parseBytes)

def conditions : SerdeJson Condition := T.json.serde (Condition.fromJson T.codecs)

/-- Loads a value. -/
def load {β : Type} (J : SerdeJson β) (path : Process → Str) : Effect (Session σ) CommandError β :=
  .read fun S ↦ (loadEscrowData S.process J.fromStr (path S.process)).mapError .loading

/-- Saves a value. The file is not touched if it cannot be created. -/
def save {β : Type} (J : SerdeJson β) (toJson : β → Except String Json) (path : Process → Str)
    (v : β) : Effect (Session σ) CommandError Unit := fun S ↦
  match saveEscrowData S.process T.writer J toJson (path S.process) v with
  | .ok P => (.ok (), { S with process := P })
  | .error (.creating file e) => (.error (.saving (.creating file e)), S)
  | .error (.serializing file e) =>
    (.error (.saving (.serializing file e)),
      { S with process := S.process.write (path S.process) T.leftover })

/-- Builds an agent. -/
def build (A : Agents σ) (config : ChainConfig) (recipient : Option Str) :
    Effect (Session σ) CommandError (Agent σ) :=
  .read fun _ ↦ (A.build config recipient).mapError .client

/-- Has an agent act. -/
def onChain {β : Type} (x : Effect σ ClientError β) : Effect (Session σ) CommandError β := fun S ↦
  ((x S.chain).1.mapError .client, { S with chain := (x S.chain).2 })

/-- Creates an escrow from its parameters. -/
def create (A : Agents σ) : Effect (Session σ) CommandError Unit := do
  let params ← load T.params Process.escrowParamsPath
  let client ← build A params.chainConfig none
  let condition ← .read fun S ↦
    (releaseCondition T.codecs.toCrates S.process T.conditions.fromStr params).mapError .loading
  let metadata ← onChain (client.createEscrow params condition)
  T.save T.metadata (fun m ↦ .ok m.toJson) Process.escrowMetadataPath metadata

/-- Finishes the escrow of some metadata. -/
def finish (A : Agents σ) (recipient : Str) (metadata : EscrowMetadata) :
    Effect (Session σ) CommandError Unit := do
  let client ← build A metadata.params.chainConfig (some recipient)
  let proof ← .read fun S ↦
    (releaseProof T.codecs S.process T.conditions.fromStr T.zkVm metadata).mapError .release
  onChain (client.finishEscrow metadata proof)

/-- Cancels the escrow of some metadata. -/
def cancel (A : Agents σ) (metadata : EscrowMetadata) : Effect (Session σ) CommandError Unit := do
  let client ← build A metadata.params.chainConfig none
  onChain (client.cancelEscrow metadata)

/-- Generates a condition file. -/
def generate (cmd : GenerateCmd) : Effect (Session σ) CommandError Unit := do
  let cond ← .read fun S ↦
    (cmd.condition T.codecs S.process T.conditions.fromStr).mapError .generate
  T.save T.conditions (Condition.toJson T.codecs) (fun _ ↦ cmd.output) cond

def execute (A : Agents σ) : Commands → Effect (Session σ) CommandError Unit
  | .create => T.create A
  | .finish recipient => do
    let metadata ← load T.metadata Process.escrowMetadataPath
    T.finish A recipient metadata
  | .cancel => do
    let metadata ← load T.metadata Process.escrowMetadataPath
    cancel A metadata
  | .generate cmd => T.generate cmd

end

end CommandLine

/-! ## What the commands do -/

namespace CommandLine

section

variable {σ β : Type} {T : CommandLine} {A : Agents σ} {S S' : Session σ}

theorem read_mapError_eq_ok {ε : Type} {f : Session σ → Except ε β} {wrap : ε → CommandError}
    {b : β} : Effect.read (fun S ↦ (f S).mapError wrap) S = (.ok b, S') ↔
      f S = .ok b ∧ S' = S := by
  rw [Effect.read_apply]
  constructor
  · intro h
    obtain ⟨hb, rfl⟩ := Prod.mk.inj h
    exact ⟨mapError_eq_ok.mp hb, rfl⟩
  · rintro ⟨hb, rfl⟩
    exact Prod.ext (mapError_eq_ok.mpr hb) rfl

theorem onChain_eq_ok {x : Effect σ ClientError β} {b : β} :
    onChain x S = (.ok b, S') ↔ ∃ chain, x S.chain = (.ok b, chain) ∧ S' = ⟨S.process, chain⟩ := by
  constructor
  · intro h
    obtain ⟨hb, rfl⟩ := Prod.mk.inj h
    exact ⟨_, Prod.ext (mapError_eq_ok.mp hb) rfl, rfl⟩
  · rintro ⟨chain, hx, rfl⟩
    refine Prod.ext ?_ ?_
    · exact mapError_eq_ok.mpr (congrArg Prod.fst hx)
    · exact congrArg (Session.mk S.process) (congrArg Prod.snd hx)

theorem save_eq_ok {J : SerdeJson β} {toJson : β → Except String Json} {path : Process → Str}
    {v : β} : T.save J toJson path v S = (.ok (), S') ↔ ∃ P,
      saveEscrowData S.process T.writer J toJson (path S.process) v = .ok P ∧
        S' = ⟨P, S.chain⟩ := by
  rw [save]
  split
  · next P hP =>
    constructor
    · intro h
      exact ⟨P, hP, (congrArg Prod.snd h).symm⟩
    · rintro ⟨P', hP', rfl⟩
      obtain rfl := Except.ok.inj (hP.symm.trans hP')
      rfl
  · next file e he =>
    refine iff_of_false (fun h ↦ error_ne_ok (congrArg Prod.fst h)) ?_
    rintro ⟨P, hP, -⟩
    exact error_ne_ok (he.symm.trans hP)
  · next file e he =>
    refine iff_of_false (fun h ↦ error_ne_ok (congrArg Prod.fst h)) ?_
    rintro ⟨P, hP, -⟩
    exact error_ne_ok (he.symm.trans hP)

/-- A creation loads the parameters, commits to the condition, has the agent act, and saves what the
agent returns. -/
theorem create_eq_ok : T.execute A .create S = (.ok (), S') ↔
    ∃ params client condition metadata chain P,
      loadEscrowData S.process T.params.fromStr S.process.escrowParamsPath = .ok params ∧
      A.build params.chainConfig none = .ok client ∧
      releaseCondition T.codecs.toCrates S.process T.conditions.fromStr params = .ok condition ∧
      client.createEscrow params condition S.chain = (.ok metadata, chain) ∧
      saveEscrowData S.process T.writer T.metadata (fun m ↦ .ok m.toJson)
        S.process.escrowMetadataPath metadata = .ok P ∧
      S' = ⟨P, chain⟩ := by
  simp only [execute, create, load, build, Effect.bind_eq_ok, read_mapError_eq_ok, onChain_eq_ok,
    save_eq_ok]
  constructor
  · rintro ⟨params, _, ⟨hparams, rfl⟩, client, _, ⟨hclient, rfl⟩, condition, _, ⟨hcondition, rfl⟩,
      metadata, _, ⟨chain, hcreate, rfl⟩, P, hsave, rfl⟩
    exact ⟨params, client, condition, metadata, chain, P, hparams, hclient, hcondition, hcreate,
      hsave, rfl⟩
  · rintro ⟨params, client, condition, metadata, chain, P, hparams, hclient, hcondition, hcreate,
      hsave, rfl⟩
    exact ⟨params, _, ⟨hparams, rfl⟩, client, _, ⟨hclient, rfl⟩, condition, _, ⟨hcondition, rfl⟩,
      metadata, _, ⟨chain, hcreate, rfl⟩, P, hsave, rfl⟩

theorem read_eq_error {f : Session σ → Except CommandError β} {e : CommandError}
    (h : Effect.read f S = (.error e, S')) : S' = S :=
  (congrArg Prod.snd h).symm

theorem onChain_eq_error {x : Effect σ ClientError β} {e : CommandError}
    (h : onChain x S = (.error e, S')) :
    S'.process = S.process ∧ ∃ e', x S.chain = (.error e', S'.chain) ∧ e = .client e' := by
  obtain ⟨he, rfl⟩ := Prod.mk.inj h
  refine ⟨rfl, ?_⟩
  rcases hx : x S.chain with ⟨r, chain⟩
  rw [hx] at he
  cases r with
  | error e' => exact ⟨e', rfl, (Except.error.inj he).symm⟩
  | ok b => exact absurd he ok_ne_error

theorem save_eq_error {J : SerdeJson β} {toJson : β → Except String Json} {path : Process → Str}
    {v : β} {e : CommandError} (h : T.save J toJson path v S = (.error e, S')) :
    S'.chain = S.chain ∧ ∃ e', e = .saving e' := by
  rw [save] at h
  split at h
  · exact absurd (congrArg Prod.fst h) ok_ne_error
  · obtain ⟨he, rfl⟩ := Prod.mk.inj h
    exact ⟨rfl, _, (Except.error.inj he).symm⟩
  · obtain ⟨he, rfl⟩ := Prod.mk.inj h
    exact ⟨rfl, _, (Except.error.inj he).symm⟩

/-- What a creation that fails has done: nothing, or what the agent has done by the time it failed,
or all but save the metadata. -/
theorem create_eq_error {e : CommandError} (h : T.execute A .create S = (.error e, S')) :
    S' = S ∨ ∃ params client condition,
      loadEscrowData S.process T.params.fromStr S.process.escrowParamsPath = .ok params ∧
      A.build params.chainConfig none = .ok client ∧
      releaseCondition T.codecs.toCrates S.process T.conditions.fromStr params = .ok condition ∧
      ((S'.process = S.process ∧ ∃ e',
          client.createEscrow params condition S.chain = (.error e', S'.chain) ∧ e = .client e') ∨
        ∃ metadata e', client.createEscrow params condition S.chain = (.ok metadata, S'.chain) ∧
          e = .saving e') := by
  simp only [execute, create, load, build, Effect.bind_eq_error, read_mapError_eq_ok,
    onChain_eq_ok] at h
  rcases h with h | ⟨params, _, ⟨hparams, rfl⟩, h⟩
  · exact .inl (read_eq_error h)
  rcases h with h | ⟨client, _, ⟨hclient, rfl⟩, h⟩
  · exact .inl (read_eq_error h)
  rcases h with h | ⟨condition, _, ⟨hcondition, rfl⟩, h⟩
  · exact .inl (read_eq_error h)
  refine .inr ⟨params, client, condition, hparams, hclient, hcondition, ?_⟩
  rcases h with h | ⟨metadata, _, ⟨chain, hcreate, rfl⟩, h⟩
  · exact .inl (onChain_eq_error h)
  · obtain ⟨hchain, e', he⟩ := save_eq_error h
    exact .inr ⟨metadata, e', hchain ▸ hcreate, he⟩

/-- A release needs an agent with the recipient's key, and a proof if there is a condition. -/
theorem finish_eq_ok {recipient : Str} {metadata : EscrowMetadata} :
    T.finish A recipient metadata S = (.ok (), S') ↔ ∃ client proof chain,
      A.build metadata.params.chainConfig (some recipient) = .ok client ∧
      releaseProof T.codecs S.process T.conditions.fromStr T.zkVm metadata = .ok proof ∧
      client.finishEscrow metadata proof S.chain = (.ok (), chain) ∧ S' = ⟨S.process, chain⟩ := by
  simp only [finish, build, Effect.bind_eq_ok, read_mapError_eq_ok, onChain_eq_ok]
  constructor
  · rintro ⟨client, _, ⟨hclient, rfl⟩, proof, _, ⟨hproof, rfl⟩, chain, hfinish, rfl⟩
    exact ⟨client, proof, chain, hclient, hproof, hfinish, rfl⟩
  · rintro ⟨client, proof, chain, hclient, hproof, hfinish, rfl⟩
    exact ⟨client, _, ⟨hclient, rfl⟩, proof, _, ⟨hproof, rfl⟩, chain, hfinish, rfl⟩

theorem cancel_eq_ok {metadata : EscrowMetadata} :
    cancel A metadata S = (.ok (), S') ↔ ∃ client chain,
      A.build metadata.params.chainConfig none = .ok client ∧
      client.cancelEscrow metadata S.chain = (.ok (), chain) ∧ S' = ⟨S.process, chain⟩ := by
  simp only [cancel, build, Effect.bind_eq_ok, read_mapError_eq_ok, onChain_eq_ok]
  constructor
  · rintro ⟨client, _, ⟨hclient, rfl⟩, chain, hcancel, rfl⟩
    exact ⟨client, chain, hclient, hcancel, rfl⟩
  · rintro ⟨client, chain, hclient, hcancel, rfl⟩
    exact ⟨client, _, ⟨hclient, rfl⟩, chain, hcancel, rfl⟩

theorem execute_of_metadata {metadata : EscrowMetadata}
    (h : loadEscrowData S.process T.metadata.fromStr S.process.escrowMetadataPath
      = .ok metadata) :
    (∀ recipient, T.execute A (.finish recipient) S = T.finish A recipient metadata S) ∧
      T.execute A .cancel S = cancel A metadata S := by
  have hload : load (σ := σ) T.metadata Process.escrowMetadataPath S = (.ok metadata, S) :=
    read_mapError_eq_ok.mpr ⟨h, rfl⟩
  exact ⟨fun recipient ↦ Effect.bind_of_ok hload, Effect.bind_of_ok hload⟩

end

end CommandLine

end Zescrow
