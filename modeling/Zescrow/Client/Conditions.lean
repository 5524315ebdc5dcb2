import Zescrow.Core.ConditionBinding
import Zescrow.Core.Interface
import Zescrow.Prover.Guest

/-!
# The condition at creation and at release

The client reads the conditions file twice. `create` loads it with references expanded and records
the commitment of what it parses; `finish` constructs the escrow it proves about with
`Escrow::from_metadata`, which parses the text as it stands. The two agree when the text means the
same with and without expansion, which they do for a text whose references are expanded to
themselves. A reference inside a hash or a key makes the second reading fail.
-/

open Foundation

namespace Zescrow

section

variable (K : Crates) (P : Process) (fromStr : Str → Except String Condition)

/-- Computes the on-chain release-condition commitment for a conditioned escrow. -/
def releaseCondition (params : EscrowParams) : Except LoadError (Option (FixedBytes 32)) :=
  if ¬params.hasConditions then .ok none else do
    let condition ← loadEscrowData P fromStr P.escrowConditionsPath
    .ok (some (condition.commitment K))

/-- What `create` records, `finish` can prove: for a recorded commitment the escrow constructed from
the metadata has a condition with that commitment, and so does whatever the guest commits about
it. -/
def FinishAgrees (params : EscrowParams) : Prop :=
  ∀ h, releaseCondition K P fromStr params = .ok (some h) →
    ∀ metadata : EscrowMetadata, metadata.params = params →
      ∃ escrow c, Escrow.fromMetadata P fromStr metadata = .ok escrow ∧
        escrow.condition = some c ∧ c.commitment K = h ∧
        ∀ input outcome p, input.escrow = escrow → PublicCommitment.new K input outcome = .ok p →
          p.condition = h

/-- Whenever the expanded text of the conditions file is a condition, the text as it stands is a
condition too, and the two are related by `S`. -/
def Reparses (S : Condition → Condition → Prop) : Prop :=
  ∀ text expanded c, P.readToString P.escrowConditionsPath = .ok text →
    expandEnvChecked P text = .ok expanded → fromStr expanded = .ok c →
      ∃ c', fromStr text = .ok c' ∧ S c c'

end

variable {K : Crates} {P : Process} {fromStr : Str → Except String Condition}
  {params : EscrowParams}

theorem releaseCondition_eq_some (hcond : params.hasConditions = true) {h : FixedBytes 32} :
    releaseCondition K P fromStr params = .ok (some h) ↔ ∃ text expanded c,
      P.readToString P.escrowConditionsPath = .ok text ∧ expandEnvChecked P text = .ok expanded ∧
      fromStr expanded = .ok c ∧ c.commitment K = h := by
  rw [releaseCondition, if_neg (not_not_intro hcond), bind_eq_ok]
  simp only [loadEscrowData_eq_ok, Except.ok.injEq, Option.some.injEq]
  constructor
  · rintro ⟨c, ⟨text, expanded, hread, hexpand, hparse⟩, hcommit⟩
    exact ⟨text, expanded, c, hread, hexpand, hparse, hcommit⟩
  · rintro ⟨text, expanded, c, hread, hexpand, hparse, hcommit⟩
    exact ⟨c, ⟨text, expanded, hread, hexpand, hparse⟩, hcommit⟩

theorem finishAgrees_iff_reparses (hcond : params.hasConditions = true) :
    FinishAgrees K P fromStr params ↔
      Reparses P fromStr fun c c' ↦ c.commitment K = c'.commitment K := by
  constructor
  · intro hagrees text expanded c hread hexpand hparse
    have hrecorded := (releaseCondition_eq_some (K := K) hcond).mpr
      ⟨text, expanded, c, hread, hexpand, hparse, rfl⟩
    obtain ⟨escrow, c', hmeta, hc', hcommit, -⟩ :=
      hagrees _ hrecorded ⟨params, .funded, none⟩ rfl
    obtain ⟨text', c'', hread', hparse', rfl⟩ := (Escrow.fromMetadata_eq_ok hcond).mp hmeta
    obtain rfl := Except.ok.inj (hread.symm.trans hread')
    obtain rfl := Option.some.inj hc'
    exact ⟨_, hparse', hcommit.symm⟩
  · intro hreparses h hrecorded metadata hparams
    obtain ⟨text, expanded, c, hread, hexpand, hparse, rfl⟩ :=
      (releaseCondition_eq_some hcond).mp hrecorded
    obtain ⟨c', hparse', hcommit⟩ := hreparses text expanded c hread hexpand hparse
    have hcond' : metadata.params.hasConditions = true := hparams ▸ hcond
    refine ⟨_, c', (Escrow.fromMetadata_eq_ok hcond').mpr ⟨text, c', hread, hparse', rfl⟩, rfl,
      hcommit.symm, fun input outcome p hescrow hp ↦ ?_⟩
    obtain ⟨hcarries, -⟩ := PublicCommitment.new_eq_ok.mp hp
    rw [hcarries.condition, hescrow, hcommit]
    rfl

theorem Reparses.mono {S T : Condition → Condition → Prop} (hST : ∀ c c', S c c' → T c c')
    (h : Reparses P fromStr S) : Reparses P fromStr T := by
  intro text expanded c hread hexpand hparse
  obtain ⟨c', hparse', hS⟩ := h text expanded c hread hexpand hparse
  exact ⟨c', hparse', hST c c' hS⟩

/-- Every reference in the conditions file is expanded to itself. This includes a file without
references. -/
def SelfExpanding (P : Process) : Prop :=
  ∀ text, P.readToString P.escrowConditionsPath = .ok text →
    ∀ name ∈ (template text).names, P.envVar name = some (Template.written envDelimiters name)

theorem SelfExpanding.finishAgrees (h : SelfExpanding P) (hcond : params.hasConditions = true) :
    FinishAgrees K P fromStr params := by
  refine (finishAgrees_iff_reparses hcond).mpr fun text expanded c hread hexpand hparse ↦ ?_
  rw [expandEnvChecked_eq_self (h text hread)] at hexpand
  obtain rfl := Except.ok.inj hexpand
  exact ⟨c, hparse, rfl⟩

/-- **When the two readings agree.** They do if and only if the text of the conditions file,
whenever its expansion is a condition, is by itself a condition with the same encoding, or with one
that collides with it under SHA-256. Whatever the JSON parser makes of a text, they agree if and
only if expansion leaves the text of the file as it is. -/
theorem finishAgrees_iff (K : Crates) (P : Process) (fromStr : Str → Except String Condition)
    (params : EscrowParams) (hcond : params.hasConditions = true) :
    (FinishAgrees K P fromStr params ↔ Reparses P fromStr fun c c' ↦ c.SameEncoding c' ∨
      Collides K.sha256 (c.hashed K ++ c'.hashed K) ∧ c.commitment K = c'.commitment K) ∧
    ((∀ fromStr, FinishAgrees K P fromStr params) ↔ ∀ text expanded,
      P.readToString P.escrowConditionsPath = .ok text → expandEnvChecked P text = .ok expanded →
        expanded = text) := by
  refine ⟨(finishAgrees_iff_reparses hcond).trans ⟨fun h ↦ ?_, fun h ↦ ?_⟩,
    fun h text expanded hread hexpand ↦ ?_, fun h fromStr ↦ ?_⟩
  · refine h.mono fun c c' hcommit ↦ ?_
    exact (Condition.sameEncoding_or_collides hcommit).imp_right fun hcol ↦ ⟨hcol, hcommit⟩
  · refine h.mono fun c c' hsame ↦ ?_
    rcases hsame with henc | ⟨-, hcommit⟩
    · exact henc.commitment_eq
    · exact hcommit
  · -- A parser that knows the expanded text only.
    let only (s : Str) : Except String Condition :=
      if s = expanded then .ok (.hashlock ⟨.zero 32, []⟩) else .error ""
    have honly : only expanded = .ok (.hashlock ⟨.zero 32, []⟩) := if_pos rfl
    obtain ⟨c', hparse', -⟩ :=
      (finishAgrees_iff_reparses hcond).mp (h only) text expanded _ hread hexpand honly
    by_contra hne
    have hrejects : only text = .error "" := if_neg (Ne.symm hne)
    exact absurd (hrejects.symm.trans hparse') error_ne_ok
  · refine (finishAgrees_iff_reparses hcond).mpr fun text expanded c hread hexpand hparse ↦ ?_
    rw [h text expanded hread hexpand] at hparse
    exact ⟨c, hparse, rfl⟩

/-! ## A hash kept in the environment -/

/-- The text of a hashlock condition with the given hash and the preimage `s`. -/
def hashlockText (hash : Str) : Str :=
  "\x7b\"condition\":\"hashlock\",\"fulfillment\":\x7b\"hash\":\"".toList ++ hash
    ++ "\",\"preimage\":\"s\"\x7d\x7d".toList

/-- The hexadecimal digits of the SHA-256 of `s`. -/
def hashDigits : Str := "043a718774c572bd8a25adbeb1bfcd5c0256ae11cecf9f9c3f925d0e52beaf89".toList

/-- The conditions file refers to a variable for its hash, and the variable is set. -/
def Process.sample : Process where
  cargoManifestDir := "core".toList
  readToString _ := .ok (hashlockText "$\x7bH\x7d".toList)
  envVar name := if name = ['H'] then some hashDigits else none

/-- The JSON parser, as far as the two texts go. -/
def conditionFromStr (s : Str) : Except String Condition :=
  if s = hashlockText hashDigits then .ok (.hashlock ⟨Sha256.digest (ascii "s"), ascii "s"⟩)
  else .error "Invalid string length"

def EscrowParams.sample : EscrowParams where
  chainConfig := ⟨.ethereum, "http://localhost:8545".toList, [], []⟩
  asset := ⟨.native, none, 1, none⟩
  sender := ⟨.bytes [1]⟩
  recipient := ⟨.bytes [2]⟩
  finishAfter := none
  cancelAfter := some 100
  hasConditions := true

theorem finishAgrees_iff_sample :
    (FinishAgrees .sample .sample conditionFromStr .sample ↔
      Reparses .sample conditionFromStr fun c c' ↦ c.SameEncoding c' ∨
        Collides Crates.sample.sha256 (c.hashed .sample ++ c'.hashed .sample) ∧
          c.commitment .sample = c'.commitment .sample) ∧
    ((∀ fromStr, FinishAgrees .sample .sample fromStr .sample) ↔ ∀ text expanded,
      Process.sample.readToString Process.sample.escrowConditionsPath = .ok text →
        expandEnvChecked .sample text = .ok expanded → expanded = text) :=
  finishAgrees_iff .sample .sample conditionFromStr .sample rfl

/-- Creation records a commitment, and the release finds no condition in the same file. -/
theorem not_finishAgrees_sample :
    releaseCondition .sample .sample conditionFromStr .sample
      = .ok (some (Condition.commitment .sample
        (.hashlock ⟨Sha256.digest (ascii "s"), ascii "s"⟩))) ∧
    Escrow.fromMetadata .sample conditionFromStr ⟨.sample, .funded, none⟩
      = .error (.json "Invalid string length") ∧
    ¬FinishAgrees .sample .sample conditionFromStr .sample := by
  have hcreate : releaseCondition .sample .sample conditionFromStr .sample
      = .ok (some (Condition.commitment .sample
        (.hashlock ⟨Sha256.digest (ascii "s"), ascii "s"⟩))) := by
    decide +kernel
  have hfinish : Escrow.fromMetadata .sample conditionFromStr ⟨.sample, .funded, none⟩
      = .error (.json "Invalid string length") := by
    rfl
  refine ⟨hcreate, hfinish, fun h ↦ ?_⟩
  obtain ⟨escrow, -, hmeta, -⟩ := h _ hcreate ⟨.sample, .funded, none⟩ rfl
  exact absurd (hfinish.symm.trans hmeta) error_ne_ok

end Zescrow
