import Zescrow.Ethereum.JournalBinding
import Zescrow.Ethereum.Lifecycle
import Zescrow.Foundation.TimeLock

/-!
# The release window on the EVM

`createEscrow` orders the two deadlines of an escrow and compares neither with the current block.
Whether the recipient has a time in which the sender cannot cancel therefore depends on the block an
escrow was created at, which the log knows.
-/

open Foundation

namespace Zescrow.Ethereum

/-! ## Time locks -/

/-- A deadline, for which zero stands for none. -/
def deadline (t : Word) : Option ℕ := if t = 0 then none else some t.toNat

def EscrowDB.timeLock (escrow : EscrowDB) : TimeLock :=
  ⟨deadline escrow.finishAfter, deadline escrow.cancelAfter⟩

theorem deadline_eq_some {t : Word} {n : ℕ} : deadline t = some n ↔ t ≠ 0 ∧ t.toNat = n := by
  rw [deadline, Option.ite_none_left_eq_some, Option.some.injEq]

theorem getD_deadline (t : Word) : (deadline t).getD 0 = t.toNat := by
  rw [deadline]
  split
  · next h =>
    rw [h]
    rfl
  · rfl

/-- The guard of `finishEscrow`. -/
theorem EscrowDB.finishOpen_iff {escrow : EscrowDB} {n : ℕ} : escrow.timeLock.FinishOpen n ↔
    ¬(escrow.finishAfter ≠ 0 ∧ n < escrow.finishAfter.toNat) := by
  rw [TimeLock.finishOpen_iff_getD, timeLock, getD_deadline, not_early_iff]

/-- The guards of `cancelEscrow`. -/
theorem EscrowDB.cancelOpen_iff {escrow : EscrowDB} {n : ℕ} : escrow.timeLock.CancelOpen n ↔
    escrow.cancelAfter ≠ 0 ∧ ¬n < escrow.cancelAfter.toNat := by
  rw [TimeLock.CancelOpen, timeLock, Nat.not_lt]
  simp only [deadline_eq_some]
  constructor
  · rintro ⟨t, ⟨hne, rfl⟩, hle⟩
    exact ⟨hne, hle⟩
  · rintro ⟨hne, hle⟩
    exact ⟨_, ⟨hne, rfl⟩, hle⟩

theorem deadline_ne_none {t : Word} : deadline t ≠ none ↔ t ≠ 0 := by
  rw [deadline, Ne, ite_eq_left_iff]
  simp

/-- The guards of `createEscrow` on the time locks. -/
theorem EscrowDB.admissible_iff {escrow : EscrowDB} {conditioned : Prop} :
    escrow.timeLock.Admissible conditioned ↔
      ¬(escrow.finishAfter = 0 ∧ escrow.cancelAfter = 0) ∧
      ¬(conditioned ∧ escrow.cancelAfter = 0) ∧
      ¬(escrow.finishAfter ≠ 0 ∧ escrow.cancelAfter ≠ 0 ∧
        escrow.cancelAfter.toNat ≤ escrow.finishAfter.toNat) := by
  have hordered : escrow.timeLock.Ordered ↔
      (escrow.cancelAfter ≠ 0 → escrow.finishAfter.toNat < escrow.cancelAfter.toNat) := by
    rw [TimeLock.Ordered, timeLock, getD_deadline]
    simp only [deadline_eq_some, and_imp]
    constructor
    · intro h hne
      exact h _ hne rfl
    · rintro h _ hne rfl
      exact h hne
  rw [TimeLock.admissible_iff, hordered, timeLock, deadline_ne_none, deadline_ne_none]
  -- A missing first deadline is before any second one.
  have hzero : escrow.finishAfter = 0 → escrow.cancelAfter ≠ 0 →
      escrow.finishAfter.toNat < escrow.cancelAfter.toNat := by
    intro hfinish hcancel
    rw [hfinish]
    exact Nat.pos_of_ne_zero fun h ↦ hcancel (BitVec.eq_of_toNat_eq h)
  rw [← Nat.not_lt]
  tauto

theorem EscrowDB.Validated.ordered_timeLock {r : EscrowDB} (hr : r.Validated) :
    r.timeLock.Ordered := by
  intro t ht
  obtain ⟨hcancel, rfl⟩ := deadline_eq_some.mp ht
  rw [EscrowDB.timeLock, getD_deadline]
  by_cases hfinish : r.finishAfter = 0
  · rw [hfinish]
    exact Nat.pos_of_ne_zero fun h ↦ hcancel (BitVec.eq_of_toNat_eq h)
  · exact hr.ordered hfinish hcancel

/-! ## What a closed lock is answered with -/

section

variable {D : Deployment} {msg : Msg} {i : Word} {receiptSeal journal : Bytes} {s : Storage}

theorem failsOnly_verifyReceipt {escrow : EscrowDB} :
    FailsOnly (· ≠ .tooEarlyToFinish) (verifyReceipt D msg escrow i receiptSeal journal) := by
  refine failsOnly_bind (fun e he ↦ ?_) fun _ _ ↦ failsOnly_ensure fun _ ↦ Revert.noConfusion
  rcases failsOnly_checkJournalBinding _ _ _ _ e he with rfl | rfl
  · exact Revert.noConfusion
  · exact Revert.noConfusion

/-- `finishEscrow` is answered with its time error exactly if the lock is not open for a release and
none of the checks before that one fails. -/
theorem beginFinish_eq_tooEarly :
    beginFinish D msg i receiptSeal journal s = .error .tooEarlyToFinish ↔
      msg.value = 0 ∧ s.entered = false ∧ (s.escrows i).sender ≠ 0 ∧
      msg.sender = (s.escrows i).recipient ∧ (s.escrows i).settled = false ∧
      ¬(s.escrows i).timeLock.FinishOpen msg.block := by
  rw [EscrowDB.finishOpen_iff, beginFinish, nonReentrantBefore]
  simp (disch := decide) only [bind_assoc, ok_bind, ensure_bind_eq_error_of_ne]
  rw [ensure_bind_eq_error_self]
  refine failsOnly_bind ?_ fun _ _ ↦ failsOnly_ok _
  split
  · exact failsOnly_verifyReceipt
  · exact failsOnly_ok _

/-- `cancelEscrow` is answered with one of its time errors exactly if the lock is not open for a
refund and none of the checks before these fails. -/
theorem beginCancel_eq_tooEarly :
    beginCancel msg i s = .error .cancelDisabled ∨ beginCancel msg i s = .error .tooEarlyToCancel ↔
      msg.value = 0 ∧ s.entered = false ∧ (s.escrows i).sender ≠ 0 ∧
      msg.sender = (s.escrows i).sender ∧ (s.escrows i).settled = false ∧
      ¬(s.escrows i).timeLock.CancelOpen msg.block := by
  rw [EscrowDB.cancelOpen_iff, beginCancel, nonReentrantBefore]
  simp (disch := decide) only [bind_assoc, ok_bind, ensure_bind_eq_error_of_ne]
  rw [ensure_bind_eq_error_self, ensure_bind_eq_error_self]
  · tauto
  · exact failsOnly_ok _
  · exact failsOnly_guard (fun _ ↦ Revert.noConfusion) fun _ ↦ failsOnly_ok _

end

/-! ## Creations -/

/-- The block escrow `i` was created at. -/
def createdAt (log : List Entry) (i : Word) : Option ℕ :=
  (log.find? fun e ↦ e.creation.map Prod.fst = some i).map (·.msg.block)

theorem exists_createdAt {log : List Entry} {i : Word} {r : EscrowDB} (h : (i, r) ∈ creations log) :
    ∃ e ∈ log, (∃ r', e.creation = some (i, r')) ∧ createdAt log i = some e.msg.block := by
  obtain ⟨e, he, hcreation⟩ := List.mem_filterMap.mp h
  rw [createdAt]
  cases hfind : log.find? fun e ↦ e.creation.map Prod.fst = some i with
  | none =>
    have hno := List.find?_eq_none.mp hfind e he
    rw [hcreation] at hno
    exact absurd (decide_eq_true rfl) hno
  | some e' =>
    have heq := List.find?_some hfind
    rw [decide_eq_true_eq] at heq
    obtain ⟨⟨_, r'⟩, hcreation', rfl⟩ := Option.map_eq_some_iff.mp heq
    exact ⟨e', List.mem_of_find?_eq_some hfind, ⟨r', hcreation'⟩, rfl⟩

/-- An action does not create an escrow that could be cancelled at once. -/
def Prompt (m : Machine) : Action → Prop
  | .call _ _ _ (.createEscrow _ _ cancelAfter _) => cancelAfter ≠ 0 → m.block < cancelAfter.toNat
  | _ => True

theorem Machine.prompt_creations {D : Deployment} {forced block : ℕ} {actions : List Action}
    (h : Along (step D) Prompt (init forced block) actions) :
    ∀ e ∈ ((init forced block).run D actions).world.log, ∀ i r, e.creation = some (i, r) →
      r.cancelAfter ≠ 0 → e.msg.block < r.cancelAfter.toNat := by
  refine log_induction (fun m a w w' e hprompt hdoes heq i r hcreation hne ↦ ?_) h
  obtain ⟨sender, value, moment, rfl, hmsg, -⟩ := hdoes.2 e heq
  obtain ⟨_, _, _, _, hcall, rfl⟩ := Entry.call_of_creation hcreation
  rw [hcall] at hprompt
  rw [hmsg]
  exact hprompt hne

/-- **The release window of an escrow.** A live escrow that can be cancelled has one exactly if it
was created before it could be; so all have along prompt creations. -/
theorem Machine.hasWindow_iff (D : Deployment) (forced block : ℕ) (actions : List Action) (i : Word)
    (hsender : (((init forced block).run D actions).world.storage.escrows i).sender ≠ 0)
    (hcancel : (((init forced block).run D actions).world.storage.escrows i).cancelAfter ≠ 0) :
    ∃ h, createdAt ((init forced block).run D actions).world.log i = some h ∧
      ((((init forced block).run D actions).world.storage.escrows i).timeLock.HasWindow h ↔
        h < (((init forced block).run D actions).world.storage.escrows i).cancelAfter.toNat) ∧
      (Along (step D) Prompt (init forced block) actions →
        h < (((init forced block).run D actions).world.storage.escrows i).cancelAfter.toNat) := by
  have hrec := recorded D forced block actions
  obtain ⟨r, hr⟩ := hrec.exists_creation (hrec.fresh.issued hsender)
  obtain ⟨e, he, ⟨r', hcreation⟩, hat⟩ := exists_createdAt hr
  have hr' : (i, r') ∈ creations ((init forced block).run D actions).world.log :=
    List.mem_filterMap.mpr ⟨e, he, hcreation⟩
  obtain ⟨-, -, hfinishAfter, hcancelAfter, -⟩ := (hrec.lives i r' hr').sameTerms
  have hlock : (((init forced block).run D actions).world.storage.escrows i).timeLock
      = r'.timeLock := by
    rw [EscrowDB.timeLock, hfinishAfter, hcancelAfter, EscrowDB.timeLock]
  rw [hcancelAfter] at hcancel ⊢
  rw [hlock]
  refine ⟨e.msg.block, hat, ?_, fun h ↦ prompt_creations h e he i r' hcreation hcancel⟩
  exact TimeLock.hasWindow_iff (validated D forced block actions i r' hr').ordered_timeLock
    (deadline_eq_some.mpr ⟨hcancel, rfl⟩) _

end Zescrow.Ethereum
