import Zescrow.Ethereum.Contract
import Zescrow.Foundation.Checkpoint

/-!
# Runs of the EVM contract

A machine runs the contract against an adversary who chooses every call, its sender and its value,
enters and leaves calls of other contracts as it likes, and has control while a payout is being
made: between `finishEscrow` or `cancelEscrow` starting the transfer and the payee returning, any
action is possible, `createEscrow` included. A call that reverts restores the storage, the balance
and the log of its start; a payee that fails makes the settling call revert as a whole, and so does
running out of gas after the payee has returned.

The log records, for each call that took effect, the message, the event and the transfer. It is
part of the world, so what is reverted is not in it.

The contract never calls itself: it calls only the verifier, by a static call, and the payees, with
empty calldata, which it does not accept. Calls from its own address are therefore excluded.
-/

open Foundation

namespace Zescrow.Ethereum

/-- An external call to the contract. -/
inductive Call where
  | createEscrow (recipient : Address) (finishAfter cancelAfter conditionId : Word)
  | finishEscrow (escrowId : Word) (receiptSeal journal : Bytes)
  | cancelEscrow (escrowId : Word)
  deriving DecidableEq

/-- A call that took effect. -/
structure Entry where
  msg : Msg
  call : Call
  event : Event
  transfer : Option Transfer
  deriving DecidableEq

/-- What a revert restores: the storage, the contract's balance, the part of it that did not come in
through `createEscrow`, and the log, oldest entry first. -/
structure World where
  storage : Storage
  balance : ℕ
  forced : ℕ
  log : List Entry

/-- A call in progress: the transfer of a settling call, or a call of some other contract. -/
inductive FrameKind where
  | payout
  | other
  deriving DecidableEq

structure Machine where
  worlds : Checkpointed FrameKind World
  block : ℕ

/-- The world as it is now. -/
def Machine.world (m : Machine) : World := m.worlds.current

/-- No call is in progress. -/
def Machine.Idle (m : Machine) : Prop := m.worlds.saved = []

/-- A fresh deployment, at an address that may hold ETH already. -/
def Machine.init (forced block : ℕ) : Machine where
  worlds := .start { storage := .init, balance := forced, forced := forced, log := [] }
  block := block

inductive Action where
  /-- `sender` calls the contract with `value`. -/
  | call (sender : Address) (value : Word) (moment : ℕ) (call : Call)
  /-- The payee's call returns, or fails. -/
  | payoutReturns (ok : Bool)
  /-- Another contract is called. -/
  | enter
  /-- That contract's call returns, or reverts. -/
  | leave (reverted : Bool)
  /-- ETH is forced into the contract. -/
  | force (value : ℕ)
  /-- A later block begins. -/
  | roll (block : ℕ)

/-- The world after a creation. -/
def World.afterCreate (w : World) (msg : Msg) (call : Call) (s : Storage) (e : Event) : World :=
  { w with
    storage := s
    balance := w.balance + msg.value.toNat
    log := w.log ++ [⟨msg, call, e, none⟩] }

/-- The world the payee of a transfer finds. -/
def World.afterTransfer (w : World) (msg : Msg) (call : Call) (s : Storage) (e : Event)
    (t : Transfer) : World :=
  { w with
    storage := s
    balance := w.balance - t.amount.toNat
    log := w.log ++ [⟨msg, call, e, some t⟩] }

/-- The world once a settling call has returned. -/
def World.unlock (w : World) : World := { w with storage := nonReentrantAfter w.storage }

/-- The world with more ETH in the contract. -/
def World.force (w : World) (value : ℕ) : World :=
  { w with balance := w.balance + value, forced := w.forced + value }

/-- A settling call hands over to the payee, unless it reverts before or cannot pay. -/
def Machine.payOut (m : Machine) (msg : Msg) (call : Call)
    (begun : Except Revert (Storage × Event × Transfer)) : Machine :=
  match begun with
  | .error _ => m
  | .ok (s, e, t) =>
    if t.amount.toNat ≤ m.world.balance then
      { m with worlds := (m.worlds.push .payout).set (m.world.afterTransfer msg call s e t) }
    else m

/-- `sender` calls the contract. -/
def Machine.call (D : Deployment) (m : Machine) (msg : Msg) (call : Call) : Machine :=
  -- The contract does not call itself.
  if msg.sender = D.self then m
  else
    match call with
    | .createEscrow recipient finishAfter cancelAfter conditionId =>
      match createEscrow msg recipient finishAfter cancelAfter conditionId m.world.storage with
      | .error _ => m
      | .ok (s, e) => { m with worlds := m.worlds.set (m.world.afterCreate msg call s e) }
    | .finishEscrow escrowId receiptSeal journal =>
      m.payOut msg call (beginFinish D msg escrowId receiptSeal journal m.world.storage)
    | .cancelEscrow escrowId => m.payOut msg call (beginCancel msg escrowId m.world.storage)

/-- The payee's call ends, and with it the settling call. -/
def Machine.payoutReturns (m : Machine) (ok : Bool) : Machine :=
  if m.worlds.top = some .payout then
    { m with worlds := if ok then m.worlds.commit.set m.world.unlock else m.worlds.abort }
  else m

/-- A call of another contract ends. -/
def Machine.leave (m : Machine) (reverted : Bool) : Machine :=
  if m.worlds.top = some .other then
    { m with worlds := if reverted then m.worlds.abort else m.worlds.commit }
  else m

/-- One action. What cannot happen in a state leaves it as it is. -/
def Machine.step (D : Deployment) (m : Machine) : Action → Machine
  | .call sender value moment call => m.call D ⟨sender, value, m.block, moment⟩ call
  | .payoutReturns ok => m.payoutReturns ok
  | .enter => { m with worlds := m.worlds.push .other }
  | .leave reverted => m.leave reverted
  | .force value => { m with worlds := m.worlds.set (m.world.force value) }
  | .roll block => if m.worlds.saved = [] ∧ m.block ≤ block then { m with block := block } else m

/-- The machine after a run. -/
abbrev Machine.run (D : Deployment) (m : Machine) (actions : List Action) : Machine :=
  Foundation.run (Machine.step D) m actions

/-! ## What a step does to the world -/

/-- The ways the world changes. -/
inductive WorldStep (D : Deployment) (w : World) : World → Prop where
  | create {msg : Msg} {recipient : Address} {finishAfter cancelAfter conditionId : Word}
      {s : Storage} {e : Event}
      (h : createEscrow msg recipient finishAfter cancelAfter conditionId w.storage = .ok (s, e)) :
      WorldStep D w
        (w.afterCreate msg (.createEscrow recipient finishAfter cancelAfter conditionId) s e)
  | finish {msg : Msg} {escrowId : Word} {receiptSeal journal : Bytes} {s : Storage} {e : Event}
      {t : Transfer} (h : beginFinish D msg escrowId receiptSeal journal w.storage = .ok (s, e, t))
      (hpay : t.amount.toNat ≤ w.balance) :
      WorldStep D w (w.afterTransfer msg (.finishEscrow escrowId receiptSeal journal) s e t)
  | cancel {msg : Msg} {escrowId : Word} {s : Storage} {e : Event} {t : Transfer}
      (h : beginCancel msg escrowId w.storage = .ok (s, e, t))
      (hpay : t.amount.toNat ≤ w.balance) :
      WorldStep D w (w.afterTransfer msg (.cancelEscrow escrowId) s e t)
  | unlock : WorldStep D w w.unlock
  | force (value : ℕ) : WorldStep D w (w.force value)

theorem WorldStep.log_eq {D : Deployment} {w w' : World} (h : WorldStep D w w') :
    w'.log = w.log ∨ ∃ e, w'.log = w.log ++ [e] := by
  cases h with
  | create | finish | cancel => exact Or.inr ⟨_, rfl⟩
  | unlock | force => exact Or.inl rfl

/-- A change of the world that action `a` makes: what it logs is the call that `a` is. -/
def Machine.Does (D : Deployment) (m : Machine) (a : Action) (w w' : World) : Prop :=
  WorldStep D w w' ∧ ∀ e, w'.log = w.log ++ [e] → ∃ sender value moment,
    a = .call sender value moment e.call ∧ e.msg = ⟨sender, value, m.block, moment⟩ ∧
      sender ≠ D.self

theorem Machine.does_of_silent {D : Deployment} {m : Machine} {a : Action} {w w' : World}
    (h : WorldStep D w w') (hlog : w'.log = w.log) : m.Does D a w w' := by
  refine ⟨h, fun e he ↦ ?_⟩
  rw [hlog, List.self_eq_append_right] at he
  exact absurd he (List.cons_ne_nil _ _)

theorem Machine.does_of_call {D : Deployment} {m : Machine} {sender : Address} {value : Word}
    {moment : ℕ} {call : Call} {w w' : World} {event : Event} {transfer : Option Transfer}
    (h : WorldStep D w w') (hsender : sender ≠ D.self)
    (hlog : w'.log = w.log ++ [⟨⟨sender, value, m.block, moment⟩, call, event, transfer⟩]) :
    m.Does D (.call sender value moment call) w w' := by
  refine ⟨h, fun e he ↦ ?_⟩
  rw [hlog, List.append_cancel_left_eq] at he
  obtain rfl := (List.cons.inj he).1
  exact ⟨sender, value, moment, rfl, rfl, hsender⟩

theorem Machine.payOut_moves {S : World → World → Prop} {m : Machine} {msg : Msg} {call : Call}
    {begun : Except Revert (Storage × Event × Transfer)}
    (h : ∀ s e t, begun = .ok (s, e, t) → t.amount.toNat ≤ m.world.balance →
      S m.world (m.world.afterTransfer msg call s e t)) :
    Checkpointed.Moves S m.worlds (m.payOut msg call begun).worlds := by
  unfold payOut
  split
  · exact .refl
  · next s e t =>
    split
    · next hpay =>
      have hpush := Checkpointed.Move.push (S := S) m.worlds FrameKind.payout
      exact .tail (.single hpush) (.act (h s e t rfl hpay))
    · exact .refl

theorem Machine.call_does (D : Deployment) (m : Machine) (sender : Address) (value : Word)
    (moment : ℕ) (call : Call) :
    Checkpointed.Moves (m.Does D (.call sender value moment call)) m.worlds
      (m.call D ⟨sender, value, m.block, moment⟩ call).worlds := by
  unfold Machine.call
  split
  · exact .refl
  · next hself =>
    split
    · split
      · exact .refl
      · next s e h => exact .single (.act (does_of_call (.create h) hself rfl))
    · exact payOut_moves fun s e t h hpay ↦ does_of_call (.finish h hpay) hself rfl
    · exact payOut_moves fun s e t h hpay ↦ does_of_call (.cancel h hpay) hself rfl

theorem Machine.payoutReturns_does (D : Deployment) (m : Machine) (ok : Bool) :
    Checkpointed.Moves (m.Does D (.payoutReturns ok)) m.worlds (m.payoutReturns ok).worlds := by
  rw [Machine.payoutReturns]
  split
  · cases ok with
    | true => exact .tail (.single (.commit m.worlds)) (.act (does_of_silent .unlock rfl))
    | false => exact .single (.abort m.worlds)
  · exact .refl

theorem Machine.leave_does (D : Deployment) (m : Machine) (reverted : Bool) :
    Checkpointed.Moves (m.Does D (.leave reverted)) m.worlds (m.leave reverted).worlds := by
  rw [Machine.leave]
  split
  · cases reverted with
    | true => exact .single (.abort m.worlds)
    | false => exact .single (.commit m.worlds)
  · exact .refl

/-- **Every action is a sequence of moves**: it changes the world in one of the ways of `WorldStep`,
enters a call, returns from one or reverts one; and it logs no call but its own. -/
theorem Machine.step_does (D : Deployment) (m : Machine) (a : Action) :
    Checkpointed.Moves (m.Does D a) m.worlds (m.step D a).worlds := by
  cases a with
  | call sender value moment call => exact m.call_does D sender value moment call
  | payoutReturns ok => exact m.payoutReturns_does D ok
  | enter => exact .single (.push m.worlds .other)
  | leave reverted => exact m.leave_does D reverted
  | force value => exact .single (.act (does_of_silent (.force value) rfl))
  | roll block =>
    -- Time is not part of the world.
    rw [Machine.step]
    split <;> exact .refl

theorem Machine.step_moves (D : Deployment) (m : Machine) (a : Action) :
    Checkpointed.Moves (WorldStep D) m.worlds (m.step D a).worlds :=
  Checkpointed.Moves.mono (fun _ _ h ↦ h.1) (m.step_does D a)

theorem Machine.run_moves (D : Deployment) (m : Machine) (actions : List Action) :
    Checkpointed.Moves (WorldStep D) m.worlds (m.run D actions).worlds :=
  run_induction (I := fun m' : Machine ↦ Checkpointed.Moves (WorldStep D) m.worlds m'.worlds)
    (fun m' a h ↦ h.trans (m'.step_moves D a)) .refl actions

/-- What holds of a fresh world and is preserved by `WorldStep` holds of every world a run reaches,
inside calls as well as outside. -/
theorem Machine.world_induction {D : Deployment} {I : World → Prop} {forced : ℕ}
    (hinit : I { storage := .init, balance := forced, forced := forced, log := [] })
    (hstep : ∀ w w', WorldStep D w w' → I w → I w') (block : ℕ) (actions : List Action) :
    I ((init forced block).run D actions).world :=
  (Checkpointed.All.moves hstep ((init forced block).run_moves D actions)
    (Checkpointed.all_start hinit)).1

/-- What every entry satisfies that a step meeting `A` logs, all entries of the worlds of a run
satisfy along which `A` holds. -/
theorem Machine.log_induction {D : Deployment} {A : Machine → Action → Prop} {P : Entry → Prop}
    (hstep : ∀ m a w w' e, A m a → Does D m a w w' → w'.log = w.log ++ [e] → P e) {forced block : ℕ}
    {actions : List Action} (h : Along (step D) A (init forced block) actions) :
    ∀ e ∈ ((init forced block).run D actions).world.log, P e := by
  have hall : Checkpointed.All (fun w ↦ ∀ e ∈ w.log, P e)
      ((init forced block).run D actions).worlds := by
    refine run_along (I := fun m : Machine ↦ Checkpointed.All _ m.worlds) (fun m a ha hm ↦ ?_)
      (Checkpointed.all_start fun e he ↦ absurd he List.not_mem_nil) h
    refine hm.moves (fun w w' hdoes hw ↦ ?_) (m.step_does D a)
    rcases hdoes.1.log_eq with heq | ⟨e', heq⟩
    · rw [heq]
      exact hw
    · intro e he
      rw [heq] at he
      rcases List.mem_append.mp he with he | he
      · exact hw e he
      · rw [List.mem_singleton.mp he]
        exact hstep m a w w' e' ha hdoes heq
  exact hall.1

/-- The contract has called itself in no entry. -/
theorem Machine.sender_ne_self (D : Deployment) (forced block : ℕ) (actions : List Action) :
    ∀ e ∈ ((init forced block).run D actions).world.log, e.msg.sender ≠ D.self := by
  refine log_induction (A := fun _ _ ↦ True) (fun m a w w' e _ hdoes heq ↦ ?_)
    (along_of_forall (fun _ _ ↦ trivial) _ _)
  obtain ⟨sender, value, moment, -, hmsg, hself⟩ := hdoes.2 e heq
  rw [hmsg]
  exact hself

/-! ## Slots that were never written -/

/-- `i` is the id of an escrow: they are numbered from one. -/
def Storage.Issued (s : Storage) (i : Word) : Prop :=
  0 < i.toNat ∧ i.toNat ≤ s.nextEscrowId.toNat

/-- The slots of all other ids are unset. -/
def Storage.Fresh (s : Storage) : Prop := ∀ i : Word, ¬s.Issued i → s.escrows i = .unset

theorem toNat_succ {n : Word} (h : n.toNat + 1 < 2 ^ 256) : (n + 1).toNat = n.toNat + 1 := by
  rw [BitVec.toNat_add]
  exact Nat.mod_eq_of_lt h

theorem Storage.Fresh.issued {s : Storage} (hs : s.Fresh) {i : Word}
    (h : (s.escrows i).sender ≠ 0) : s.Issued i := by
  by_contra hi
  rw [hs i hi] at h
  exact h rfl

theorem Storage.Fresh.settling {s : Storage} (hs : s.Fresh) {i : Word}
    (h : (s.escrows i).sender ≠ 0) : (s.settling i).Fresh := by
  intro j hj
  have hne : j ≠ i := by
    rintro rfl
    exact hj (hs.issued h)
  exact (Storage.settling_escrows_of_ne hne).trans (hs j hj)

theorem Storage.issued_issue_iff {s : Storage} {escrow : EscrowDB} {i : Word}
    (h : s.nextEscrowId.toNat + 1 < 2 ^ 256) :
    (s.issue escrow).Issued i ↔ s.Issued i ∨ i = s.nextEscrowId + 1 := by
  rw [Issued, Issued, issue_nextEscrowId, ← BitVec.toNat_inj, toNat_succ h]
  omega

theorem Storage.not_issued_succ {s : Storage} (h : s.nextEscrowId.toNat + 1 < 2 ^ 256) :
    ¬s.Issued (s.nextEscrowId + 1) := by
  rw [Issued, toNat_succ h]
  omega

theorem Storage.Fresh.create {s s' : Storage} {msg : Msg} {recipient : Address}
    {finishAfter cancelAfter conditionId : Word} {e : Event} (hs : s.Fresh)
    (h : createEscrow msg recipient finishAfter cancelAfter conditionId s = .ok (s', e)) :
    s'.Fresh := by
  obtain ⟨-, -, -, -, -, hlt, rfl, -⟩ := createEscrow_eq_ok.mp h
  intro j hj
  -- An id that is still not issued is not the new one either.
  rw [Storage.issued_issue_iff hlt, not_or] at hj
  exact (Storage.issue_escrows_of_ne hj.2).trans (hs j hj.1)

end Zescrow.Ethereum
