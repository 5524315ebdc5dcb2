import Zescrow.Core.ConditionBinding
import Zescrow.Prover.Guest

/-!
# What the guest's journal says

Whether the guest commits a journal at all is decided by its identities and its amount: they must
decode and fit the layout. What the journal says is then the input's own data and one bit, whether
every check of the execution passed.

So the journal says nothing of the witnesses: they enter it neither through the condition
commitment, which hashes public parameters only, nor through the outcome beyond that bit.
-/

open Foundation

namespace Zescrow

/-- The identities the guest decodes. -/
def ProofInput.identities (x : ProofInput) : List ID :=
  x.agentId :: x.escrow.sender.identity :: x.escrow.recipient.identity ::
    x.escrow.asset.agentId.toList

/-- An identity does not decode, the amount is wider than 256 bits, or a decoded identity is longer
than its length prefix can say. -/
def ProofInput.Aborts (K : Crates) (x : ProofInput) : Prop :=
  (∃ id ∈ x.identities, ∀ b, id.toBytes K ≠ .ok b) ∨ 2 ^ 256 ≤ x.escrow.asset.amount ∨
    ∃ id ∈ x.identities, ∃ b, id.toBytes K = .ok b ∧ 65535 < b.length

/-- Every check of the execution passes. -/
structure ProofInput.Releasable (K : Crates) (x : ProofInput) : Prop where
  funded : x.escrow.state = .funded
  sender : ∃ b, x.escrow.sender.toBytes K = .ok b ∧ b ≠ []
  recipient : ∃ b, x.escrow.recipient.toBytes K = .ok b ∧ b ≠ []
  amount : x.escrow.asset.amount ≠ 0
  token : x.escrow.asset.kind = .token →
    ∃ id b, x.escrow.asset.agentId = some id ∧ id.toBytes K = .ok b ∧ b ≠ []
  condition : ∀ c, x.escrow.condition = some c → c.Satisfied K

/-! ## Whether there is a journal -/

theorem Asset.tokenBytes_fits {K : Crates} {a : Asset} :
    (∃ t, a.tokenBytes K = .ok t ∧ t.length ≤ 65535) ↔
      ∀ id ∈ a.agentId.toList, ∃ b, id.toBytes K = .ok b ∧ b.length ≤ 65535 := by
  rw [tokenBytes]
  cases a.agentId with
  | none => simp
  | some id => simp

/-- The guest commits a journal when every identity decodes to bytes that fit, and the amount
fits. -/
theorem Guest.main_isOk {K : Crates} {decode : DecodeInput} {frame : Bytes} {x : ProofInput}
    (hx : decode frame = .ok x) : (∃ journal, main K decode frame = .ok journal) ↔
      (∀ id ∈ x.identities, ∃ b, id.toBytes K = .ok b ∧ b.length ≤ 65535) ∧
        x.escrow.asset.amount < 2 ^ 256 := by
  rw [ProofInput.identities, List.forall_mem_cons, List.forall_mem_cons, List.forall_mem_cons,
    ← Asset.tokenBytes_fits]
  constructor
  · rintro ⟨journal, hmain⟩
    obtain ⟨x', c, hx', hc, hjournal⟩ := main_eq_ok.mp hmain
    obtain rfl := Except.ok.inj (hx.symm.trans hx')
    obtain ⟨h, -⟩ := PublicCommitment.new_eq_ok.mp hc
    obtain ⟨hfits, -⟩ := PublicCommitment.toJournalBytes_iff.mp hjournal
    exact ⟨⟨⟨_, h.agentId, Nat.lt_succ_iff.mp hfits.agentId⟩,
      ⟨_, h.sender, Nat.lt_succ_iff.mp hfits.sender⟩,
      ⟨_, h.recipient, Nat.lt_succ_iff.mp hfits.recipient⟩,
      ⟨_, h.assetToken, Nat.lt_succ_iff.mp hfits.assetToken⟩⟩, h.amount ▸ hfits.amount⟩
  · rintro ⟨⟨⟨agent, hagent, hagent'⟩, ⟨sender, hsender, hsender'⟩,
      ⟨recipient, hrecipient, hrecipient'⟩, token, htoken, htoken'⟩, hamount⟩
    let c : PublicCommitment :=
      { chain := x.chain
        agentId := agent
        escrowId := x.escrowId
        sender := sender
        recipient := recipient
        assetKind := x.escrow.asset.kind
        assetToken := token
        amount := x.escrow.asset.amount
        condition := conditionCommitment K x.escrow.condition
        outcome := outcome (x.escrow.execute K).1 }
    have hfits : c.Encodable := ⟨hamount, Nat.lt_succ_of_le hagent', Nat.lt_succ_of_le hsender',
      Nat.lt_succ_of_le hrecipient', Nat.lt_succ_of_le htoken'⟩
    have hcarries : x.Carries K c := ⟨rfl, hagent, rfl, hsender, hrecipient, rfl, htoken, rfl, rfl⟩
    obtain ⟨journal, hjournal⟩ := PublicCommitment.toJournalBytes_isOk.mpr hfits
    exact ⟨journal, main_eq_ok.mpr
      ⟨x, c, hx, PublicCommitment.new_eq_ok.mpr ⟨hcarries, rfl⟩, hjournal⟩⟩

theorem Guest.main_eq_error {K : Crates} {decode : DecodeInput} {frame : Bytes} {x : ProofInput}
    (hx : decode frame = .ok x) :
    (∃ message, main K decode frame = .error message) ↔ x.Aborts K := by
  have hfails : (∃ message, main K decode frame = .error message) ↔
      ¬∃ journal, main K decode frame = .ok journal := by
    cases main K decode frame with
    | ok journal => simp
    | error message => simp
  rw [hfails, main_isOk hx, ProofInput.Aborts]
  constructor
  · intro h
    by_cases hdecodes : ∀ id ∈ x.identities, ∃ b, id.toBytes K = .ok b
    · by_cases hamount : x.escrow.asset.amount < 2 ^ 256
      · right; right
        by_contra hlong
        refine h ⟨fun id hid ↦ ?_, hamount⟩
        obtain ⟨b, hb⟩ := hdecodes id hid
        exact ⟨b, hb, Nat.le_of_not_lt fun hlt ↦ hlong ⟨id, hid, b, hb, hlt⟩⟩
      · exact Or.inr (Or.inl (Nat.le_of_not_lt hamount))
    · left
      by_contra hnone
      refine hdecodes fun id hid ↦ ?_
      by_contra hb
      exact hnone ⟨id, hid, fun b hb' ↦ hb ⟨b, hb'⟩⟩
  · rintro (⟨id, hid, hnone⟩ | hwide | ⟨id, hid, b, hb, hlong⟩) ⟨hdecodes, hamount⟩
    · obtain ⟨b, hb, -⟩ := hdecodes id hid
      exact hnone b hb
    · exact absurd hamount (Nat.not_lt.mpr hwide)
    · obtain ⟨b', hb', hle⟩ := hdecodes id hid
      obtain rfl := Except.ok.inj (hb.symm.trans hb')
      exact absurd hlong (Nat.not_lt.mpr hle)

/-! ## What the journal says -/

theorem Guest.outcome_eq_success_iff {K : Crates} {x : ProofInput} {s : ExecutionState} :
    outcome (x.escrow.execute K).1 = .success s ↔ s = .conditionsMet ∧ x.Releasable K := by
  rw [outcome_eq_success, Escrow.validateParties_eq_ok, Asset.validate_eq_ok]
  constructor
  · rintro ⟨hs, hstate, ⟨hsender, hrecipient⟩, ⟨hamount, htoken⟩, hcond⟩
    exact ⟨hs, hstate, hsender, hrecipient, hamount, htoken, hcond⟩
  · rintro ⟨hs, h⟩
    exact ⟨hs, h.funded, ⟨h.sender, h.recipient⟩, ⟨h.amount, h.token⟩, h.condition⟩

/-- **The guest's outcome is exact.** On a frame that decodes to `x` the guest aborts exactly when
an identity does not decode or something does not fit; otherwise its journal decodes to a commitment
that carries the data of `x`, with success when every check passes and failure when one does not. An
execution that fails leaves the escrow as it was. -/
theorem Guest.main_exact (K : Crates) (decode : DecodeInput) (frame : Bytes) (x : ProofInput)
    (hx : decode frame = .ok x) :
    ((∃ message, main K decode frame = .error message) ↔ x.Aborts K) ∧
    (∀ journal, main K decode frame = .ok journal → ∃ c,
      PublicCommitment.fromJournalBytes journal = .ok c ∧ x.Carries K c ∧
      (c.outcome = .success .conditionsMet ↔ x.Releasable K) ∧
      (¬x.Releasable K → c.outcome = .failure) ∧
      c.outcome ≠ .success .initialized ∧ c.outcome ≠ .success .funded) ∧
    ∀ err e, x.escrow.execute K = (.error err, e) → e = x.escrow := by
  refine ⟨main_eq_error hx, fun journal hmain ↦ ?_, fun err e ↦ Escrow.execute_eq_error⟩
  obtain ⟨x', c, hx', hc, hjournal⟩ := main_eq_ok.mp hmain
  obtain rfl := Except.ok.inj (hx.symm.trans hx')
  obtain ⟨hcarries, houtcome⟩ := PublicCommitment.new_eq_ok.mp hc
  have hsuccess (s : ExecutionState) : c.outcome = .success s ↔
      s = .conditionsMet ∧ x.Releasable K := houtcome ▸ outcome_eq_success_iff
  refine ⟨c, PublicCommitment.fromJournalBytes_eq_ok_iff.mpr hjournal, hcarries,
    (hsuccess _).trans (and_iff_right rfl), fun hnot ↦ ?_, fun h ↦ ?_, fun h ↦ ?_⟩
  · cases ho : c.outcome with
    | success s => exact absurd ((hsuccess s).mp ho).2 hnot
    | failure => rfl
  · exact absurd ((hsuccess _).mp h).1 (by decide)
  · exact absurd ((hsuccess _).mp h).1 (by decide)

/-- An input that asks for a preimage, which it has, or for another one, which may be anything. -/
def ProofInput.sample (preimage : Bytes) : ProofInput where
  escrow :=
    { asset := ⟨.native, none, 5, none⟩
      recipient := ⟨.bytes [2]⟩
      sender := ⟨.bytes [1]⟩
      condition := some (.threshold 1
        [.hashlock ⟨Crates.sample.sha256 (ascii "secret"), ascii "secret"⟩,
          .hashlock ⟨.zero 32, preimage⟩])
      state := .funded }
  chain := .solana
  agentId := .bytes [3]
  escrowId := 1

private theorem releasable_sample (preimage : Bytes) :
    (ProofInput.sample preimage).Releasable .sample where
  funded := rfl
  sender := ⟨[1], rfl, List.cons_ne_nil _ _⟩
  recipient := ⟨[2], rfl, List.cons_ne_nil _ _⟩
  amount := by simp [ProofInput.sample]
  token := by simp [ProofInput.sample]
  condition := by
    intro c hc
    obtain rfl := Option.some.inj hc
    refine Condition.satisfied_threshold.mpr ⟨one_pos, List.countP_pos_iff.mpr ?_⟩
    exact ⟨_, List.mem_cons_self, decide_eq_true (Condition.satisfied_hashlock.mpr rfl)⟩

theorem Guest.main_exact_sample :
    ∃ journal c, main .sample (fun _ ↦ .ok (.sample [])) [] = .ok journal ∧
      PublicCommitment.fromJournalBytes journal = .ok c ∧ c.outcome = .success .conditionsMet := by
  obtain ⟨haborts, hcommits, -⟩ :=
    main_exact .sample (fun _ ↦ .ok (.sample [])) [] (.sample []) rfl
  have hnot : ¬(ProofInput.sample []).Aborts .sample := by
    simp [ProofInput.Aborts, ProofInput.identities, ProofInput.sample, ID.toBytes]
  cases hmain : main .sample (fun _ ↦ .ok (.sample [])) [] with
  | error message => exact absurd (haborts.mp ⟨message, hmain⟩) hnot
  | ok journal =>
    obtain ⟨c, hc, -, hsuccess, -⟩ := hcommits journal hmain
    exact ⟨journal, c, rfl, hc, hsuccess.mpr (releasable_sample [])⟩

/-! ## What the journal does not say -/

/-- The inputs differ at most in witnesses. -/
structure ProofInput.SameButWitness (x x' : ProofInput) : Prop where
  chain : x.chain = x'.chain
  agentId : x.agentId = x'.agentId
  escrowId : x.escrowId = x'.escrowId
  asset : x.escrow.asset = x'.escrow.asset
  recipient : x.escrow.recipient = x'.escrow.recipient
  sender : x.escrow.sender = x'.escrow.sender
  state : x.escrow.state = x'.escrow.state
  condition : Option.Rel Condition.SamePublic x.escrow.condition x'.escrow.condition

theorem conditionCommitment_congr {K : Crates} {c c' : Option Condition}
    (h : Option.Rel Condition.SamePublic c c') :
    conditionCommitment K c = conditionCommitment K c' := by
  cases h with
  | some h => exact h.commitment_eq
  | none => rfl

/-- Of the execution the outcome shows only whether it succeeds. -/
theorem Guest.outcome_congr {K : Crates} {e e' : Escrow}
    (h : (∃ s, (e.execute K).1 = .ok s) ↔ ∃ s, (e'.execute K).1 = .ok s) :
    outcome (e.execute K).1 = outcome (e'.execute K).1 := by
  have hmet {e : Escrow} {s : ExecutionState} (h : (e.execute K).1 = .ok s) : s = .conditionsMet :=
    (Escrow.execute_eq_ok (Prod.ext h rfl)).1
  cases hr : (e.execute K).1 with
  | ok s =>
    obtain ⟨s', hr'⟩ := h.mp ⟨s, hr⟩
    rw [hr', hmet hr, hmet hr']
  | error err =>
    cases hr' : (e'.execute K).1 with
    | ok s' =>
      obtain ⟨s, hs⟩ := h.mpr ⟨s', hr'⟩
      exact absurd (hr.symm.trans hs) error_ne_ok
    | error err' => rfl

/-- What an input carries into its commitment does not depend on the witnesses. -/
theorem ProofInput.Carries.congr {K : Crates} {x x' : ProofInput} {c : PublicCommitment}
    (hc : x.Carries K c) (h : x.SameButWitness x') : x'.Carries K c where
  chain := hc.chain.trans h.chain
  agentId := h.agentId ▸ hc.agentId
  escrowId := hc.escrowId.trans h.escrowId
  sender := h.sender ▸ hc.sender
  recipient := h.recipient ▸ hc.recipient
  assetKind := h.asset ▸ hc.assetKind
  assetToken := h.asset ▸ hc.assetToken
  amount := h.asset ▸ hc.amount
  condition := hc.condition.trans (conditionCommitment_congr h.condition)

/-- **The journal hides the witness.** Two runs of the guest on inputs that differ at most in
witnesses, and that both execute or both fail to, commit the same journal. -/
theorem Guest.journal_hides_witness (K : Crates) (decode : DecodeInput) (frame frame' : Bytes)
    (x x' : ProofInput) (hx : decode frame = .ok x) (hx' : decode frame' = .ok x')
    (h : x.SameButWitness x')
    (hexec : (∃ s, (x.escrow.execute K).1 = .ok s) ↔ ∃ s, (x'.escrow.execute K).1 = .ok s)
    (journal journal' : Bytes) (hmain : main K decode frame = .ok journal)
    (hmain' : main K decode frame' = .ok journal') : journal = journal' := by
  obtain ⟨y, c, hy, hc, hjournal⟩ := main_eq_ok.mp hmain
  obtain ⟨y', c', hy', hc', hjournal'⟩ := main_eq_ok.mp hmain'
  obtain rfl := Except.ok.inj (hx.symm.trans hy)
  obtain rfl := Except.ok.inj (hx'.symm.trans hy')
  -- The first commitment is one for the second input as well.
  obtain ⟨hcarries, houtcome⟩ := PublicCommitment.new_eq_ok.mp hc
  have hnew := PublicCommitment.new_eq_ok.mpr
    ⟨hcarries.congr h, houtcome.trans (outcome_congr hexec)⟩
  obtain rfl := Except.ok.inj (hnew.symm.trans hc')
  exact Except.ok.inj (hjournal.symm.trans hjournal')

private theorem exists_journal_sample (preimage : Bytes) :
    ∃ journal, Guest.main .sample (fun frame ↦ .ok (.sample frame)) preimage = .ok journal := by
  let condition := conditionCommitment .sample (ProofInput.sample preimage).escrow.condition
  let c (outcome : ExecutionResult) : PublicCommitment :=
    ⟨.solana, [3], 1, [1], [2], .native, [], 5, condition, outcome⟩
  have hnew (outcome : ExecutionResult) :
      PublicCommitment.new .sample (.sample preimage) outcome = .ok (c outcome) :=
    PublicCommitment.new_eq_ok.mpr ⟨⟨rfl, rfl, rfl, rfl, rfl, rfl, rfl, rfl, rfl⟩, rfl⟩
  have hencodable (outcome : ExecutionResult) : (c outcome).Encodable := by
    constructor
    all_goals norm_num [c]
  exact ⟨_, Guest.main_eq_ok.mpr
    ⟨_, _, rfl, hnew _, PublicCommitment.toJournalBytes_iff.mpr ⟨hencodable _, rfl⟩⟩⟩

theorem Guest.journal_hides_witness_sample :
    ∃ journal, main .sample (fun frame ↦ .ok (.sample frame)) [] = .ok journal ∧
      main .sample (fun frame ↦ .ok (.sample frame)) [7] = .ok journal := by
  have hexec (preimage : Bytes) :
      ∃ s, ((ProofInput.sample preimage).escrow.execute .sample).1 = .ok s := by
    have hmet := outcome_eq_success_iff.mpr ⟨rfl, releasable_sample preimage⟩
    cases hr : ((ProofInput.sample preimage).escrow.execute .sample).1 with
    | ok s => exact ⟨s, rfl⟩
    | error err =>
      rw [hr] at hmet
      exact absurd hmet (by simp [outcome])
  obtain ⟨journal, hjournal⟩ := exists_journal_sample []
  obtain ⟨journal', hjournal'⟩ := exists_journal_sample [7]
  have hsame := journal_hides_witness .sample (fun frame ↦ .ok (.sample frame)) [] [7] _ _ rfl rfl
    ⟨rfl, rfl, rfl, rfl, rfl, rfl, rfl, .some ⟨rfl, rfl, rfl, trivial⟩⟩
    (iff_of_true (hexec []) (hexec [7])) journal journal' hjournal hjournal'
  rw [← hsame] at hjournal'
  exact ⟨journal, hjournal, hjournal'⟩

end Zescrow
