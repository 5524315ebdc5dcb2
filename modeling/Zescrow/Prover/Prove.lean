import Zescrow.Prover.Input
import Zescrow.Prover.Outcome

/-!
# Proving a release

The prover hands the frame of its input to the zkVM, verifies the receipt it gets against the image
id of the guest, reads the journal back and accepts it only if the conditions were met. The zkVM is
third-party code; what is assumed of it is that a receipt it has produced for a frame carries the
journal that the guest commits on that frame.

Between the input and the proof stand the frame codec, the guest and the journal codec. Each is
inverted by the next, so the proof is about the input and nothing else, and the branch that reports
a journal that does not decode is never taken.
-/

open Foundation Foundation.Bincode

namespace Zescrow

/-- A receipt of the zkVM: a proof that the guest has committed a journal. -/
structure Receipt where
  inner : Bytes
  journal : Bytes
  deriving DecidableEq

/-- The zkVM, with the image id of the guest it was built with. -/
structure ZkVm where
  guestId : List UInt32
  proveWithOpts : Bytes → Except String Receipt
  verify : Receipt → List UInt32 → Except String Unit
  encodeSeal : Receipt → Except String Bytes

/-- Errors that can occur during proof generation and verification. -/
inductive ProverError where
  | proving (e : String)
  | verifyReceipt (e : String)
  | journal (e : Fault)
  | unexpectedOutcome (outcome : ExecutionResult)
  deriving DecidableEq

/-- A binding proof artifact. -/
structure EscrowProof where
  imageId : List UInt32
  commitment : PublicCommitment
  receipt : Receipt
  deriving DecidableEq

/-- The selector-prefixed receipt seal an on-chain client submits. -/
def EscrowProof.encodedSeal (Z : ZkVm) (proof : EscrowProof) : Except String Bytes :=
  Z.encodeSeal proof.receipt

/-- The journal bytes committed by the guest. -/
def EscrowProof.journalBytes (proof : EscrowProof) : Bytes := proof.receipt.journal

/-- Generates a binding zero-knowledge proof for `input`. -/
def prove (Z : ZkVm) (input : ProofInput) : Except ProverError EscrowProof := do
  let receipt ← (Z.proveWithOpts input.encode).mapError .proving
  (Z.verify receipt Z.guestId).mapError .verifyReceipt
  let commitment ← (PublicCommitment.fromJournalBytes receipt.journal).mapError .journal
  match commitment.outcome with
  | .success .conditionsMet => .ok ⟨Z.guestId, commitment, receipt⟩
  | other => .error (.unexpectedOutcome other)

/-! ## What is assumed of the zkVM -/

/-- What the zkVM proves of a frame is what the guest does with it. -/
def ZkVm.Executes (Z : ZkVm) (K : Crates) : Prop :=
  ∀ frame receipt, Z.proveWithOpts frame = .ok receipt →
    Guest.main K ProofInput.ofFrame frame = .ok receipt.journal

/-- On a frame on which the guest commits a journal the zkVM succeeds, and what it has proved
verifies. -/
def ZkVm.Completes (Z : ZkVm) (K : Crates) : Prop :=
  ∀ frame journal, Guest.main K ProofInput.ofFrame frame = .ok journal →
    ∃ receipt, Z.proveWithOpts frame = .ok receipt ∧ Z.verify receipt Z.guestId = .ok ()

/-! ## From the input to the journal -/

/-- The conditions under which a frame is decoded to the input it was encoded from. -/
structure ProofInput.Portable (x : ProofInput) : Prop where
  thresholds : ∀ c, x.escrow.condition = some c → c.NarrowThresholds
  fits : Fits .bits32 x.encode

theorem ProofInput.Portable.ofFrame_encode {x : ProofInput} (h : x.Portable) :
    ProofInput.ofFrame x.encode = .ok x := by
  rw [ProofInput.ofFrame, decodeFromSlice_of_reads (ProofInput.reads h.thresholds h.fits)]
  rfl

/-- There is no other success, so what is not released has failed. -/
theorem Guest.outcome_eq_failure {K : Crates} {x : ProofInput} (h : ¬x.Releasable K) :
    outcome (x.escrow.execute K).1 = .failure := by
  cases houtcome : outcome (x.escrow.execute K).1 with
  | failure => rfl
  | success s => exact absurd (Guest.outcome_eq_success_iff.mp houtcome).2 h

/-- The guest commits the journal of the input and of its outcome, if there is one. -/
theorem Guest.main_encode {K : Crates} {x : ProofInput} (hx : x.Portable) {journal : Bytes} :
    main K ProofInput.ofFrame x.encode = .ok journal ↔ ∃ c, x.Carries K c ∧
      c.outcome = outcome (x.escrow.execute K).1 ∧ c.toJournalBytes = .ok journal := by
  rw [Guest.main_eq_ok, hx.ofFrame_encode]
  constructor
  · rintro ⟨input, c, hinput, hnew, hjournal⟩
    obtain rfl := Except.ok.inj hinput
    obtain ⟨hcarries, houtcome⟩ := PublicCommitment.new_eq_ok.mp hnew
    exact ⟨c, hcarries, houtcome, hjournal⟩
  · rintro ⟨c, hcarries, houtcome, hjournal⟩
    exact ⟨x, c, rfl, PublicCommitment.new_eq_ok.mpr ⟨hcarries, houtcome⟩, hjournal⟩

theorem ProofInput.Carries.eq_of_outcome {K : Crates} {x : ProofInput} {c c' : PublicCommitment}
    (h : x.Carries K c) (h' : x.Carries K c') (houtcome : c.outcome = c'.outcome) : c = c' := by
  have hnew := PublicCommitment.new_eq_ok.mpr ⟨h, houtcome⟩
  exact Except.ok.inj (hnew.symm.trans (PublicCommitment.new_eq_ok.mpr ⟨h', rfl⟩))

/-! ## From the journal to the proof -/

section

variable {Z : ZkVm} {K : Crates} {x : ProofInput}

/-- What `prove` makes of a verified receipt of the input: its journal decodes, to the commitment
that carries the input, and it is refused exactly if the guest reports a failure. -/
theorem prove_of_receipt (hZ : Z.Executes K) (hx : x.Portable) {receipt : Receipt}
    (hprove : Z.proveWithOpts x.encode = .ok receipt)
    (hverify : Z.verify receipt Z.guestId = .ok ()) :
    ∃ c, x.Carries K c ∧ c.toJournalBytes = .ok receipt.journal ∧
      c.outcome = Guest.outcome (x.escrow.execute K).1 ∧
      (x.Releasable K → prove Z x = .ok ⟨Z.guestId, c, receipt⟩) ∧
      (¬x.Releasable K → prove Z x = .error (.unexpectedOutcome .failure)) := by
  obtain ⟨c, hcarries, houtcome, hjournal⟩ := (Guest.main_encode hx).mp (hZ _ _ hprove)
  have hdecode : PublicCommitment.fromJournalBytes receipt.journal = .ok c :=
    PublicCommitment.fromJournalBytes_eq_ok_iff.mpr hjournal
  refine ⟨c, hcarries, hjournal, houtcome, fun h ↦ ?_, fun h ↦ ?_⟩
  · rw [Guest.outcome_eq_success_iff.mpr ⟨rfl, h⟩] at houtcome
    simp only [prove, hprove, hverify, hdecode, Except.mapError, ok_bind, houtcome]
  · rw [Guest.outcome_eq_failure h] at houtcome
    simp only [prove, hprove, hverify, hdecode, Except.mapError, ok_bind, houtcome]

/-- Every way `prove` can end. -/
theorem prove_cases (hZ : Z.Executes K) (hx : x.Portable) :
    (∃ e, prove Z x = .error (.proving e)) ∨ (∃ e, prove Z x = .error (.verifyReceipt e)) ∨
    ∃ receipt c, Z.proveWithOpts x.encode = .ok receipt ∧ Z.verify receipt Z.guestId = .ok () ∧
      x.Carries K c ∧ c.toJournalBytes = .ok receipt.journal ∧
      ((x.Releasable K ∧ c.outcome = .success .conditionsMet ∧
          prove Z x = .ok ⟨Z.guestId, c, receipt⟩) ∨
        ¬x.Releasable K ∧ prove Z x = .error (.unexpectedOutcome .failure)) := by
  cases hprove : Z.proveWithOpts x.encode with
  | error e => exact .inl ⟨e, by simp only [prove, hprove, Except.mapError, error_bind]⟩
  | ok receipt =>
    cases hverify : Z.verify receipt Z.guestId with
    | error e =>
      refine .inr (.inl ⟨e, ?_⟩)
      simp only [prove, hprove, hverify, Except.mapError, ok_bind, error_bind]
    | ok =>
      obtain ⟨c, hcarries, hjournal, houtcome, hmet, hfailed⟩ :=
        prove_of_receipt hZ hx hprove hverify
      refine .inr (.inr ⟨receipt, c, rfl, hverify, hcarries, hjournal, ?_⟩)
      by_cases h : x.Releasable K
      · rw [Guest.outcome_eq_success_iff.mpr ⟨rfl, h⟩] at houtcome
        exact .inl ⟨h, houtcome, hmet h⟩
      · exact .inr ⟨h, hfailed h⟩

theorem prove_eq_ok (hZ : Z.Executes K) (hx : x.Portable) {proof : EscrowProof} :
    prove Z x = .ok proof ↔ Z.proveWithOpts x.encode = .ok proof.receipt ∧
      Z.verify proof.receipt Z.guestId = .ok () ∧ proof.imageId = Z.guestId ∧ x.Releasable K ∧
      x.Carries K proof.commitment ∧ proof.commitment.outcome = .success .conditionsMet ∧
      proof.commitment.toJournalBytes = .ok proof.journalBytes := by
  constructor
  · intro h
    rcases prove_cases hZ hx with ⟨e, he⟩ | ⟨e, he⟩ | ⟨receipt, c, hprove, hverify, hcarries,
      hjournal, ⟨hmet, houtcome, hproof⟩ | ⟨-, he⟩⟩
    · exact absurd (he.symm.trans h) error_ne_ok
    · exact absurd (he.symm.trans h) error_ne_ok
    · obtain rfl := Except.ok.inj (hproof.symm.trans h)
      exact ⟨hprove, hverify, rfl, hmet, hcarries, houtcome, hjournal⟩
    · exact absurd (he.symm.trans h) error_ne_ok
  · rintro ⟨hprove, hverify, himage, hmet, hcarries, houtcome, -⟩
    obtain ⟨c, hcarries', -, houtcome', hproof, -⟩ := prove_of_receipt hZ hx hprove hverify
    rw [Guest.outcome_eq_success_iff.mpr ⟨rfl, hmet⟩] at houtcome'
    obtain rfl := hcarries'.eq_of_outcome hcarries (houtcome'.trans houtcome.symm)
    rw [hproof hmet, ← himage]

theorem prove_of_aborts (hZ : Z.Executes K) (hx : x.Portable) (habort : x.Aborts K) :
    ∃ e, prove Z x = .error (.proving e) := by
  cases hprove : Z.proveWithOpts x.encode with
  | error e => exact ⟨e, by simp only [prove, hprove, Except.mapError, error_bind]⟩
  | ok receipt =>
    obtain ⟨message, hmain⟩ := (Guest.main_eq_error hx.ofFrame_encode).mpr habort
    exact absurd (hmain.symm.trans (hZ _ _ hprove)) error_ne_ok

theorem prove_of_completes (hZ : Z.Executes K) (hcomplete : Z.Completes K) (hx : x.Portable)
    (habort : ¬x.Aborts K) : (x.Releasable K → ∃ proof, prove Z x = .ok proof) ∧
      (¬x.Releasable K → prove Z x = .error (.unexpectedOutcome .failure)) := by
  have hguest : ∃ journal, Guest.main K ProofInput.ofFrame x.encode = .ok journal := by
    cases hmain : Guest.main K ProofInput.ofFrame x.encode with
    | ok journal => exact ⟨journal, rfl⟩
    | error message =>
      exact absurd ((Guest.main_eq_error hx.ofFrame_encode).mp ⟨message, hmain⟩) habort
  obtain ⟨journal, hjournal⟩ := hguest
  obtain ⟨receipt, hprove, hverify⟩ := hcomplete _ _ hjournal
  obtain ⟨c, -, -, -, hmet, hfailed⟩ := prove_of_receipt hZ hx hprove hverify
  exact ⟨fun h ↦ ⟨_, hmet h⟩, hfailed⟩

/-- **What is proved.** `prove` succeeds exactly on a verified receipt of an escrow that passes all
checks, and then the commitment carries the input, says that the conditions were met and is the
journal of the receipt. It never finds a journal that does not decode, the only outcome it refuses
is a failure, of an escrow that does not pass, and on an input the guest aborts on proving fails.
Where the zkVM does not fail by itself, every other escrow that passes is proved and every one that
does not is refused. -/
theorem prove_exact (hZ : Z.Executes K) (hx : x.Portable) :
    (∀ proof, prove Z x = .ok proof ↔ Z.proveWithOpts x.encode = .ok proof.receipt ∧
      Z.verify proof.receipt Z.guestId = .ok () ∧ proof.imageId = Z.guestId ∧ x.Releasable K ∧
      x.Carries K proof.commitment ∧ proof.commitment.outcome = .success .conditionsMet ∧
      proof.commitment.toJournalBytes = .ok proof.journalBytes) ∧
    (∀ e, prove Z x ≠ .error (.journal e)) ∧
    (∀ r, prove Z x = .error (.unexpectedOutcome r) → r = .failure ∧ ¬x.Releasable K) ∧
    (x.Aborts K → ∃ e, prove Z x = .error (.proving e)) ∧
    (Z.Completes K → ¬x.Aborts K → (x.Releasable K → ∃ proof, prove Z x = .ok proof) ∧
      (¬x.Releasable K → prove Z x = .error (.unexpectedOutcome .failure))) := by
  refine ⟨fun proof ↦ prove_eq_ok hZ hx, fun e h ↦ ?_, fun r h ↦ ?_, prove_of_aborts hZ hx,
    fun hcomplete ↦ prove_of_completes hZ hcomplete hx⟩
  · rcases prove_cases hZ hx with ⟨e', he⟩ | ⟨e', he⟩ | ⟨_, _, -, -, -, -, ⟨-, -, he⟩ | ⟨-, he⟩⟩
    · exact ProverError.noConfusion (Except.error.inj (he.symm.trans h))
    · exact ProverError.noConfusion (Except.error.inj (he.symm.trans h))
    · exact ok_ne_error (he.symm.trans h)
    · exact ProverError.noConfusion (Except.error.inj (he.symm.trans h))
  · rcases prove_cases hZ hx with ⟨e', he⟩ | ⟨e', he⟩ | ⟨_, _, -, -, -, -, ⟨-, -, he⟩ | ⟨hno, he⟩⟩
    · exact ProverError.noConfusion (Except.error.inj (he.symm.trans h))
    · exact ProverError.noConfusion (Except.error.inj (he.symm.trans h))
    · exact absurd (he.symm.trans h) ok_ne_error
    · exact ⟨(ProverError.unexpectedOutcome.inj (Except.error.inj (he.symm.trans h))).symm, hno⟩

end

/-! ## A zkVM that runs the guest -/

/-- A zkVM whose receipts are what the guest commits, sealed by its digest. -/
def ZkVm.sample (K : Crates) : ZkVm where
  guestId := []
  proveWithOpts frame := (Guest.main K ProofInput.ofFrame frame).map fun journal ↦
    ⟨(K.sha256 journal).1, journal⟩
  verify receipt _ := ensure (receipt.inner = (K.sha256 receipt.journal).1) "invalid proof"
  encodeSeal receipt := .ok receipt.inner

theorem ZkVm.executes_sample (K : Crates) : (ZkVm.sample K).Executes K := by
  intro frame receipt h
  cases hmain : Guest.main K ProofInput.ofFrame frame with
  | error message => simp [sample, hmain, Except.map] at h
  | ok journal =>
    simp only [sample, hmain, Except.map, Except.ok.injEq] at h
    rw [← h]

theorem ZkVm.completes_sample (K : Crates) : (ZkVm.sample K).Completes K := by
  intro frame journal h
  exact ⟨⟨(K.sha256 journal).1, journal⟩, by simp [sample, h, Except.map], if_pos rfl⟩

/-- An input that asks for a preimage and has it. -/
def ProofInput.hashlockSample : ProofInput where
  escrow :=
    { asset := ⟨.native, none, 5, none⟩
      recipient := ⟨.bytes [2]⟩
      sender := ⟨.bytes [1]⟩
      condition := some (.hashlock ⟨Crates.sample.sha256 (ascii "secret"), ascii "secret"⟩)
      state := .funded }
  chain := .solana
  agentId := .bytes [3]
  escrowId := 1

theorem prove_exact_sample :
    ∃ proof, prove (.sample .sample) .hashlockSample = .ok proof ∧
      proof.commitment.outcome = .success .conditionsMet := by
  have hx : ProofInput.hashlockSample.Portable := by
    refine ⟨fun c hc ↦ ?_, ?_⟩
    · obtain rfl := Option.some.inj hc
      exact .hashlock _
    · rw [Fits]
      decide
  have habort : ¬ProofInput.hashlockSample.Aborts .sample := by
    simp [ProofInput.Aborts, ProofInput.identities, ProofInput.hashlockSample, ID.toBytes]
  have hmet : ProofInput.hashlockSample.Releasable .sample := by
    refine ⟨rfl, ⟨[1], rfl, by decide⟩, ⟨[2], rfl, by decide⟩, ?_, ?_, fun c hc ↦ ?_⟩
    · simp [ProofInput.hashlockSample]
    · simp [ProofInput.hashlockSample]
    · obtain rfl := Option.some.inj hc
      exact Condition.satisfied_hashlock.mpr rfl
  obtain ⟨hok, -, -, -, hexact⟩ := prove_exact (ZkVm.executes_sample .sample) hx
  obtain ⟨proof, hproof⟩ := (hexact (ZkVm.completes_sample .sample) habort).1 hmet
  obtain ⟨-, -, -, -, -, houtcome, -⟩ := (hok proof).mp hproof
  exact ⟨proof, hproof, houtcome⟩

end Zescrow
