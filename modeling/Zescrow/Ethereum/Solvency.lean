import Mathlib.Algebra.BigOperators.Fin
import Mathlib.Data.BitVec
import Mathlib.Data.FinEnum
import Zescrow.Ethereum.Machine
import Zescrow.Foundation.Ledger

/-!
# Solvency of the EVM contract

What the contract holds is what it owes, plus what was forced into it. The books are kept twice:
from the log, as what was received and what was paid out, and from the storage, as the sum of the
unsettled amounts. A settlement zeroes its record before it pays, so the two agree at every point
at which the payee has control.
-/

open Foundation

namespace Zescrow.Ethereum

/-- The sum of the amounts of all unsettled escrows. -/
def outstanding (s : Storage) : ℕ :=
  ∑ i : Word with (s.escrows i).settled = false, (s.escrows i).amount.toNat

/-- The ETH a call brought in through `createEscrow`. -/
def Entry.received (e : Entry) : ℕ :=
  match e.call with
  | .createEscrow .. => e.msg.value.toNat
  | .finishEscrow .. | .cancelEscrow .. => 0

/-- The ETH a call paid out. -/
def Entry.paid (e : Entry) : ℕ :=
  match e.transfer with
  | some t => t.amount.toNat
  | none => 0

/-- The ETH received through `createEscrow`. -/
def received (log : List Entry) : ℕ := (log.map Entry.received).sum

/-- The ETH paid out. -/
def paid (log : List Entry) : ℕ := (log.map Entry.paid).sum

/-! ## The sum over all escrows -/

/-- What a record contributes to `outstanding`. -/
def EscrowDB.due (escrow : EscrowDB) : ℕ :=
  if escrow.settled = false then escrow.amount.toNat else 0

theorem outstanding_eq (s : Storage) : outstanding s = ∑ i : Word, (s.escrows i).due :=
  Finset.sum_filter _ _

theorem due_unset : EscrowDB.unset.due = 0 := rfl

theorem due_settle (escrow : EscrowDB) : escrow.settle.due = 0 := rfl

theorem due_of_unsettled {escrow : EscrowDB} (h : escrow.settled = false) :
    escrow.due = escrow.amount.toNat := if_pos h

theorem sum_due_update (f : Word → EscrowDB) (i : Word) (escrow : EscrowDB) :
    ∑ j, (Function.update f i escrow j).due + (f i).due = ∑ j, (f j).due + escrow.due := by
  have hcomp : (fun j ↦ (Function.update f i escrow j).due)
      = Function.update (fun j ↦ (f j).due) i escrow.due :=
    Function.comp_update EscrowDB.due f i escrow
  rw [hcomp]
  exact sum_update_add (fun j ↦ (f j).due) i escrow.due

theorem due_le_outstanding (s : Storage) (i : Word) : (s.escrows i).due ≤ outstanding s := by
  rw [outstanding_eq]
  exact Finset.single_le_sum (f := fun j ↦ (s.escrows j).due) (fun j _ ↦ Nat.zero_le _)
    (Finset.mem_univ i)

theorem outstanding_create {s s' : Storage} {msg : Msg} {recipient : Address}
    {finishAfter cancelAfter conditionId : Word} {e : Event} (hs : s.Fresh)
    (h : createEscrow msg recipient finishAfter cancelAfter conditionId s = .ok (s', e)) :
    outstanding s' = outstanding s + msg.value.toNat := by
  obtain ⟨-, -, -, -, -, hlt, rfl, -⟩ := createEscrow_eq_ok.mp h
  -- The new slot was unset, so nothing is lost from the sum.
  have hsum := sum_due_update s.escrows (s.nextEscrowId + 1)
    (newEscrow msg recipient finishAfter cancelAfter conditionId)
  rw [hs _ (Storage.not_issued_succ hlt), due_unset, Nat.add_zero] at hsum
  rw [outstanding_eq, outstanding_eq]
  exact hsum

theorem outstanding_settling {s : Storage} {i : Word} (h : (s.escrows i).settled = false) :
    outstanding (s.settling i) + (s.escrows i).amount.toNat = outstanding s := by
  have hsum := sum_due_update s.escrows i (s.escrows i).settle
  rw [due_settle, due_of_unsettled h, Nat.add_zero] at hsum
  rw [outstanding_eq, outstanding_eq]
  exact hsum

/-! ## The books -/

theorem received_append (log : List Entry) (e : Entry) :
    received (log ++ [e]) = received log + e.received := by
  rw [received, List.map_append, List.sum_append, List.map_singleton, List.sum_singleton, received]

theorem paid_append (log : List Entry) (e : Entry) : paid (log ++ [e]) = paid log + e.paid := by
  rw [paid, List.map_append, List.sum_append, List.map_singleton, List.sum_singleton, paid]

/-- Both accounts agree with the storage. -/
structure Solvent (w : World) : Prop where
  fresh : w.storage.Fresh
  balance : w.balance = outstanding w.storage + w.forced
  books : received w.log = paid w.log + outstanding w.storage

theorem Solvent.init (forced : ℕ) :
    Solvent { storage := .init, balance := forced, forced := forced, log := [] } := by
  have hzero : outstanding .init = 0 := by
    rw [outstanding_eq]
    exact Finset.sum_eq_zero fun _ _ ↦ due_unset
  refine ⟨fun _ _ ↦ rfl, ?_, ?_⟩
  · rw [hzero, Nat.zero_add]
  · rw [hzero]
    rfl

/-- A settlement takes from the storage what it takes from the balance. -/
theorem Solvent.afterTransfer {w : World} (hw : Solvent w) {msg : Msg} {call : Call} {e : Event}
    {t : Transfer} {i : Word} (hvalue : (Entry.mk msg call e (some t)).received = 0)
    (hsender : (w.storage.escrows i).sender ≠ 0)
    (hunsettled : (w.storage.escrows i).settled = false)
    (ht : t.amount = (w.storage.escrows i).amount) :
    Solvent (w.afterTransfer msg call (w.storage.settling i) e t) := by
  -- What is sent is what the record contributed to the sum.
  have hout := outstanding_settling hunsettled
  rw [← ht] at hout
  refine ⟨hw.fresh.settling hsender, ?_, ?_⟩
  · have hbalance := hw.balance
    change w.balance - t.amount.toNat = outstanding (w.storage.settling i) + w.forced
    omega
  · have hbooks := hw.books
    have hpaid : (Entry.mk msg call e (some t)).paid = t.amount.toNat := rfl
    change received (w.log ++ [_]) = paid (w.log ++ [_]) + outstanding (w.storage.settling i)
    rw [received_append, paid_append, hvalue, hpaid]
    omega

theorem Solvent.step {D : Deployment} {w w' : World} (h : WorldStep D w w') (hw : Solvent w) :
    Solvent w' := by
  cases h with
  | @create msg _ _ _ _ s _ h =>
    have hout := outstanding_create hw.fresh h
    refine ⟨hw.fresh.create h, ?_, ?_⟩
    · have hbalance := hw.balance
      change w.balance + msg.value.toNat = outstanding s + w.forced
      omega
    · have hbooks := hw.books
      change received (w.log ++ [_]) = paid (w.log ++ [_]) + outstanding s
      rw [received_append, paid_append, hout, hbooks]
      change _ + msg.value.toNat = _ + 0 + _
      omega
  | finish h hpay =>
    obtain ⟨-, -, hallowed, rfl, rfl, -⟩ := beginFinish_eq_ok.mp h
    exact hw.afterTransfer rfl hallowed.exists_ hallowed.unsettled rfl
  | cancel h hpay =>
    obtain ⟨-, -, hallowed, rfl, rfl, -⟩ := beginCancel_eq_ok.mp h
    exact hw.afterTransfer rfl hallowed.exists_ hallowed.unsettled rfl
  -- Neither the records nor the books mention the guard.
  | unlock => exact ⟨hw.fresh, hw.balance, hw.books⟩
  | force value =>
    refine ⟨hw.fresh, ?_, hw.books⟩
    have hbalance := hw.balance
    change w.balance + value = outstanding w.storage + (w.forced + value)
    omega

/-- Every world a run reaches keeps its books. -/
theorem Machine.solvent (D : Deployment) (forced block : ℕ) (actions : List Action) :
    Solvent ((init forced block).run D actions).world :=
  world_induction (Solvent.init forced) (fun _ _ ↦ Solvent.step) block actions

/-- **Solvency under reentrancy.** In every state a run reaches, inside the payout of a settlement
or any other call as well as outside, the contract holds the unsettled amounts and what was forced
into it, so at least the unsettled amounts; and what was received by creations is what was paid out
and what is unsettled. -/
theorem Machine.solvency (D : Deployment) (forced block : ℕ) (actions : List Action) :
    let w := ((init forced block).run D actions).world
    outstanding w.storage ≤ w.balance ∧ w.balance = outstanding w.storage + w.forced ∧
      received w.log = paid w.log + outstanding w.storage := by
  have h := solvent D forced block actions
  refine ⟨?_, h.balance, h.books⟩
  rw [h.balance]
  exact Nat.le_add_right _ _

end Zescrow.Ethereum
