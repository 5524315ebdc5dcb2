import Zescrow.Ethereum.Lifecycle
import Zescrow.Ethereum.Solvency
import Zescrow.Foundation.Sha256

/-!
# A way out without a proof

Every escrow can be settled without a proof from some height on, which its terms fix: by a refund
if it can be cancelled, and otherwise by a release, for which it needs no proof, since a conditioned
escrow has a cancellation height. Nothing other escrows do takes that away: what is owed to it is in
the contract, and the reentrancy guard is clear whenever no settlement is in progress.
-/

open Foundation

namespace Zescrow.Ethereum

/-! ## The reentrancy guard -/

/-- No settling call is in progress. -/
def Machine.NonReentrant (m : Machine) : Prop := FrameKind.payout ∉ m.worlds.kinds

theorem Machine.Idle.nonReentrant {m : Machine} (h : m.Idle) : m.NonReentrant := by
  rw [NonReentrant, Checkpointed.kinds, h]
  exact List.not_mem_nil

/-- The guard is set only inside a settling call. -/
def GuardHeld (w : World) (frames : List FrameKind) : Prop :=
  w.storage.entered = true → .payout ∈ frames

theorem Machine.payOut_framed {m : Machine} (hm : m.worlds.Framed GuardHeld) (msg : Msg)
    (call : Call) (begun : Except Revert (Storage × Event × Transfer)) :
    (m.payOut msg call begun).worlds.Framed GuardHeld := by
  unfold payOut
  split
  · exact hm
  · split
    · exact hm.push_set fun _ ↦ List.mem_cons_self
    · exact hm

theorem Machine.call_framed {D : Deployment} {m : Machine} (hm : m.worlds.Framed GuardHeld)
    (msg : Msg) (call : Call) : (m.call D msg call).worlds.Framed GuardHeld := by
  unfold Machine.call
  split
  · exact hm
  · split
    · split
      · exact hm
      · next s e h =>
        -- A creation leaves the guard as it is.
        obtain ⟨-, -, -, -, -, -, rfl, -⟩ := createEscrow_eq_ok.mp h
        exact hm.set hm.current
    · exact payOut_framed hm ..
    · exact payOut_framed hm ..

theorem Machine.step_framed {D : Deployment} {m : Machine} (hm : m.worlds.Framed GuardHeld)
    (a : Action) : (m.step D a).worlds.Framed GuardHeld := by
  cases a with
  | call sender value moment call => exact call_framed hm ..
  | payoutReturns ok =>
    rw [step, payoutReturns]
    split
    · cases ok with
      | true => exact hm.commit_set fun h ↦ absurd h Bool.false_ne_true
      | false => exact hm.abort
    · exact hm
  | enter => exact hm.push_set fun h ↦ List.mem_cons_of_mem _ (hm.current h)
  | leave reverted =>
    rw [step, leave]
    split
    · next htop =>
      cases reverted with
      | true => exact hm.abort
      | false =>
        refine hm.commit_set fun h ↦ ?_
        -- The call that ends is not a settling one.
        have hmem := hm.current h
        rw [Checkpointed.kinds_of_top htop, List.mem_cons] at hmem
        exact hmem.resolve_left FrameKind.noConfusion
    · exact hm
  | force value => exact hm.set hm.current
  | roll block =>
    rw [step]
    split <;> exact hm

/-- Outside settling calls the guard is clear. -/
theorem Machine.guard_clear (D : Deployment) (forced block : ℕ) (actions : List Action)
    (h : ((init forced block).run D actions).NonReentrant) :
    ((init forced block).run D actions).world.storage.entered = false := by
  have hframed : ((init forced block).run D actions).worlds.Framed GuardHeld :=
    run_induction (I := fun m : Machine ↦ m.worlds.Framed GuardHeld)
      (fun m a hm ↦ step_framed hm a)
        (Checkpointed.framed_start fun h ↦ absurd h Bool.false_ne_true)
      actions
  exact Bool.eq_false_of_not_eq_true fun hentered ↦ h (hframed.current hentered)

/-! ## The exit of an escrow -/

/-- The height from which on `r` can be settled without a proof. -/
def EscrowDB.exitHeight (r : EscrowDB) : ℕ :=
  if r.cancelAfter ≠ 0 then r.cancelAfter.toNat else r.finishAfter.toNat

/-- Who can settle `r` without a proof, and is paid. -/
def EscrowDB.exitPayee (r : EscrowDB) : Address :=
  if r.cancelAfter ≠ 0 then r.sender else r.recipient

/-- The call that settles escrow `i` with record `r` without a proof. -/
def EscrowDB.exitCall (r : EscrowDB) (i : Word) : Call :=
  if r.cancelAfter ≠ 0 then .cancelEscrow i else .finishEscrow i [] []

/-- The event of that call. -/
def EscrowDB.exitEvent (r : EscrowDB) (i : Word) : Event :=
  if r.cancelAfter ≠ 0 then .escrowCancelled i r.sender r.amount
  else .escrowFinished i r.recipient r.amount

theorem Machine.exit_begins {D : Deployment} {m : Machine} {i : Word} {r : EscrowDB}
    (moment : ℕ) (hr : r.Validated) (hnow : m.world.storage.escrows i = r) (hsender : r.sender ≠ 0)
    (hguard : m.world.storage.entered = false) (hheight : r.exitHeight ≤ m.block)
    (hself : r.exitPayee ≠ D.self) :
    m.call D ⟨r.exitPayee, 0, m.block, moment⟩ (r.exitCall i) =
      m.payOut ⟨r.exitPayee, 0, m.block, moment⟩ (r.exitCall i)
        (.ok (m.world.storage.settling i, r.exitEvent i, ⟨r.exitPayee, r.amount⟩)) := by
  subst hnow
  unfold Machine.call
  rw [if_neg hself]
  by_cases hcancel : (m.world.storage.escrows i).cancelAfter ≠ 0
  · simp only [EscrowDB.exitHeight, EscrowDB.exitPayee, EscrowDB.exitCall, EscrowDB.exitEvent,
      if_pos hcancel] at hheight ⊢
    have hallowed : CancelAllowed ⟨(m.world.storage.escrows i).sender, 0, m.block, moment⟩
        (m.world.storage.escrows i) := ⟨hsender, rfl, hr.settled, hcancel, hheight⟩
    rw [beginCancel_eq_ok.mpr ⟨rfl, hguard, hallowed, rfl, rfl, rfl⟩]
  · simp only [EscrowDB.exitHeight, EscrowDB.exitPayee, EscrowDB.exitCall, EscrowDB.exitEvent,
      if_neg hcancel] at hheight ⊢
    -- Without a cancellation height there is no condition, so there is nothing to prove.
    have hallowed : FinishAllowed D ⟨(m.world.storage.escrows i).recipient, 0, m.block, moment⟩ i
        [] [] (m.world.storage.escrows i) :=
      ⟨hsender, rfl, hr.settled, hheight, fun hcond ↦ absurd (hr.deadline hcond) hcancel⟩
    rw [beginFinish_eq_ok.mpr ⟨rfl, hguard, hallowed, rfl, rfl, rfl⟩]

theorem Machine.payoutReturns_payOut {m : Machine} {msg : Msg} {call : Call} {s : Storage}
    {e : Event} {t : Transfer} (hpay : t.amount.toNat ≤ m.world.balance) :
    (m.payOut msg call (.ok (s, e, t))).payoutReturns true =
      { m with worlds := m.worlds.set (m.world.afterTransfer msg call s e t).unlock } := by
  rw [payOut, if_pos hpay, payoutReturns, if_pos rfl]
  rfl

theorem Machine.step_roll {D : Deployment} {m : Machine} {n : ℕ} (hn : m.block ≤ n)
    (h : m.Idle ∨ n = m.block) : m.step D (.roll n) = { m with block := n } := by
  rw [step]
  split
  · rfl
  · next hno =>
    rcases h with hidle | rfl
    · exact absurd ⟨hidle, hn⟩ hno
    · rfl

/-- **A proof-free exit always exists.** Whenever no settlement is in progress, an escrow that is
not settled has a height, fixed by the record it was created with, such that at every block from it
on one call settles it without a proof if the payee accepts the ETH: a refund to the sender if the
escrow can be cancelled, and otherwise a release to the recipient. A conditioned escrow can be
cancelled. -/
theorem Machine.exit_exists (D : Deployment) (forced block : ℕ) (actions : List Action) :
    let m := (init forced block).run D actions
    m.NonReentrant → ∀ i, (m.world.storage.escrows i).sender ≠ 0 →
      (m.world.storage.escrows i).settled = false →
      ∃ r, (i, r) ∈ creations m.world.log ∧ (r.conditionId ≠ 0 → r.cancelAfter ≠ 0) ∧
        ∀ n moment, r.exitHeight ≤ n → m.block ≤ n → (m.Idle ∨ n = m.block) →
          -- The contract itself does not accept ETH.
          (r.cancelAfter = 0 → r.recipient ≠ D.self) →
          let m' := m.run D
            [.roll n, .call r.exitPayee 0 moment (r.exitCall i), .payoutReturns true]
          m'.worlds.saved = m.worlds.saved ∧ m'.world.storage.escrows i = r.settle ∧
            m'.world.balance + r.amount.toNat = m.world.balance ∧
            m'.world.log = m.world.log ++ [⟨⟨r.exitPayee, 0, n, moment⟩, r.exitCall i,
              r.exitEvent i, some ⟨r.exitPayee, r.amount⟩⟩] := by
  intro m hfree i hsender hunsettled
  have hrec := recorded D forced block actions
  obtain ⟨r, hr⟩ := hrec.exists_creation (hrec.fresh.issued hsender)
  have hvalid := validated D forced block actions i r hr
  have hnow : m.world.storage.escrows i = r := by
    rcases hrec.lives i r hr with ⟨hnow, -⟩ | ⟨hnow, -⟩
    · exact hnow
    · rw [hnow] at hunsettled
      exact absurd hunsettled.symm Bool.false_ne_true
  refine ⟨r, hr, hvalid.deadline, fun n moment hheight hn hidle hrecipient ↦ ?_⟩
  have hself : r.exitPayee ≠ D.self := by
    rw [EscrowDB.exitPayee]
    split
    · obtain ⟨e, he, hcreation⟩ := List.mem_filterMap.mp hr
      obtain ⟨_, _, _, _, -, rfl⟩ := Entry.call_of_creation hcreation
      exact sender_ne_self D forced block actions e he
    · next hcancel => exact hrecipient (not_not.mp hcancel)
  have hpay : r.amount.toNat ≤ m.world.balance := by
    rw [← hnow, ← due_of_unsettled hunsettled]
    exact (due_le_outstanding _ i).trans (solvency D forced block actions).1
  rw [hnow] at hsender
  have hguard := guard_clear D forced block actions hfree
  have hrun : m.run D [.roll n, .call r.exitPayee 0 moment (r.exitCall i), .payoutReturns true] =
      { worlds := m.worlds.set (m.world.afterTransfer ⟨r.exitPayee, 0, n, moment⟩ (r.exitCall i)
          (m.world.storage.settling i) (r.exitEvent i) ⟨r.exitPayee, r.amount⟩).unlock
        block := n } := by
    have hcall := exit_begins (m := { m with block := n }) moment hvalid hnow hsender hguard
      hheight hself
    change ((m.step D (.roll n)).call D ⟨r.exitPayee, 0, (m.step D (.roll n)).block, moment⟩
      (r.exitCall i)).payoutReturns true = _
    rw [step_roll hn hidle, hcall, payoutReturns_payOut hpay]
    rfl
  rw [hrun]
  refine ⟨rfl, ?_, Nat.sub_add_cancel hpay, rfl⟩
  rw [← hnow]
  exact Storage.settling_escrows_self _ i

/-- A contract at address 3 whose verifier refuses everything. -/
def refusingDeployment : Deployment where
  self := 3
  verifier := 5
  imageId := 8
  verifier_ne_zero := by decide
  imageId_ne_zero := by decide
  verify _ _ _ _ := false
  sha256 := Sha256.digest

/-- A conditioned escrow whose proof nobody can give is refunded at its cancellation height. -/
theorem Machine.exit_exists_sample :
    ((init 0 0).run refusingDeployment [.call 1 5 0 (.createEscrow 2 0 10 9), .roll 10,
      .call 1 0 0 (.cancelEscrow 1), .payoutReturns true]).world.storage.escrows 1 =
        (newEscrow ⟨1, 5, 0, 0⟩ 2 0 10 9).settle := by
  obtain ⟨r, hr, -, hexit⟩ := exit_exists refusingDeployment 0 0
    [.call 1 5 0 (.createEscrow 2 0 10 9)] (Idle.nonReentrant rfl) 1 (by decide) (by decide)
  obtain ⟨-, rfl⟩ := Prod.mk.inj (List.mem_singleton.mp hr)
  have hexit := hexit 10 0 (by decide) (Nat.zero_le 10) (Or.inl rfl) (by decide)
  exact hexit.2.1

end Zescrow.Ethereum
