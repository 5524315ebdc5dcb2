import Zescrow.Ethereum.Protocol

/-!
# Settling transactions

A transaction that settles an escrow, made outside all calls, either takes effect as a whole or
leaves no trace. It takes effect exactly if the record as created allows its call, the escrow is not
settled and the payee takes the ETH.

If the record allowed the call, the escrow is settled afterwards in any case: by the transaction, or
by another one before it. It was then released, or it was refunded when that was open.
-/

open Foundation

namespace Zescrow.Ethereum

/-- What a settling transaction meets: the verifier at a moment, and a payee that takes the ETH or
does not. -/
structure Encounter where
  moment : ℕ
  accepts : Bool

/-- A transaction of one settling call. -/
def Machine.transact (D : Deployment) (m : Machine) (signer : Address) (call : Call)
    (env : Encounter) : Machine :=
  m.run D [.call signer 0 env.moment call, .payoutReturns env.accepts]

variable {D : Deployment} {m : Machine}

/-- A settling call outside all calls takes effect, or leaves no trace. -/
theorem Machine.payoutReturns_cases (hidle : m.Idle) {msg : Msg} {call : Call}
    {begun : Except Revert (Storage × Event × Transfer)}
    (hpay : ∀ s e t, begun = .ok (s, e, t) → t.amount.toNat ≤ m.world.balance) (accepts : Bool) :
    (∃ s e t, begun = .ok (s, e, t) ∧ accepts = true ∧
        (m.payOut msg call begun).payoutReturns accepts =
          { m with worlds := m.worlds.set (m.world.afterTransfer msg call s e t).unlock }) ∨
      ((∀ r, begun = .ok r → accepts = false) ∧
        (m.payOut msg call begun).payoutReturns accepts = m) := by
  have htop : m.worlds.top ≠ some .payout := by
    rw [Checkpointed.top, hidle]
    exact (Option.some_ne_none _).symm
  cases begun with
  | error e =>
    refine .inr ⟨fun r h ↦ absurd h error_ne_ok, ?_⟩
    rw [payOut, payoutReturns, if_neg htop]
  | ok r =>
    obtain ⟨s, e, t⟩ := r
    have hpaid := hpay s e t rfl
    cases accepts with
    | true => exact .inl ⟨s, e, t, rfl, rfl, payoutReturns_payOut hpaid⟩
    | false =>
      refine .inr ⟨fun _ _ ↦ rfl, ?_⟩
      simp only [payOut, if_pos hpaid]
      rfl

/-- The call settles escrow `i`, if it has any effect. -/
def Call.Settles (call : Call) (i : Word) : Prop :=
  call = .cancelEscrow i ∨ ∃ receiptSeal journal, call = .finishEscrow i receiptSeal journal

theorem Machine.exists_begun {msg : Msg} (hself : msg.sender ≠ D.self) {call : Call} {i : Word}
    (hcall : call.Settles i) : ∃ begun, m.call D msg call = m.payOut msg call begun ∧
      ∀ s e t, begun = .ok (s, e, t) ↔ msg.value = 0 ∧ m.world.storage.entered = false ∧
        Authorized D i (m.world.storage.escrows i) ⟨msg, call, e, some t⟩ ∧
        s = m.world.storage.settling i := by
  rcases hcall with rfl | ⟨receiptSeal, journal, rfl⟩
  · refine ⟨beginCancel msg i m.world.storage, ?_, fun s e t ↦ beginCancel_eq_ok.trans ?_⟩
    · unfold Machine.call
      rw [if_neg hself]
    · constructor
      · rintro ⟨hvalue, hguard, hallowed, rfl, rfl, rfl⟩
        exact ⟨hvalue, hguard, .refund hallowed, rfl⟩
      · rintro ⟨hvalue, hguard, hauth, rfl⟩
        cases hauth with
        | refund hallowed => exact ⟨hvalue, hguard, hallowed, rfl, rfl, rfl⟩
  · refine ⟨beginFinish D msg i receiptSeal journal m.world.storage, ?_, fun s e t ↦
      beginFinish_eq_ok.trans ?_⟩
    · unfold Machine.call
      rw [if_neg hself]
    · constructor
      · rintro ⟨hvalue, hguard, hallowed, rfl, rfl, rfl⟩
        exact ⟨hvalue, hguard, .release hallowed, rfl⟩
      · rintro ⟨hvalue, hguard, hauth, rfl⟩
        cases hauth with
        | release hallowed => exact ⟨hvalue, hguard, hallowed, rfl, rfl, rfl⟩

/-- The record allows the call. -/
def Permits (D : Deployment) (i : Word) (r : EscrowDB) (msg : Msg) (call : Call) : Prop :=
  ∃ e t, Authorized D i r ⟨msg, call, e, some t⟩

theorem permits_finish {i : Word} {r : EscrowDB} {msg : Msg} {receiptSeal journal : Bytes} :
    Permits D i r msg (.finishEscrow i receiptSeal journal) ↔
      FinishAllowed D msg i receiptSeal journal r := by
  constructor
  · rintro ⟨e, t, hauth⟩
    cases hauth with
    | release hallowed => exact hallowed
  · intro hallowed
    exact ⟨_, _, .release hallowed⟩

theorem permits_cancel {i : Word} {r : EscrowDB} {msg : Msg} :
    Permits D i r msg (.cancelEscrow i) ↔ CancelAllowed msg r := by
  constructor
  · rintro ⟨e, t, hauth⟩
    cases hauth with
    | refund hallowed => exact hallowed
  · intro hallowed
    exact ⟨_, _, .refund hallowed⟩

theorem Permits.unsettled {i : Word} {r : EscrowDB} {msg : Msg} {call : Call}
    (h : Permits D i r msg call) : r.settled = false := by
  obtain ⟨e, t, hauth⟩ := h
  cases hauth with
  | release hallowed => exact hallowed.unsettled
  | refund hallowed => exact hallowed.unsettled

/-- What a settling transaction does: it takes effect exactly if the record allows it and the payee
takes the ETH, and otherwise it leaves no trace. -/
theorem Machine.transact_cases (hidle : m.Idle) (hguard : m.world.storage.entered = false)
    {signer : Address} (hself : signer ≠ D.self) {call : Call} {i : Word} (hcall : call.Settles i)
    (env : Encounter) (hpay : (m.world.storage.escrows i).settled = false →
      (m.world.storage.escrows i).amount.toNat ≤ m.world.balance) :
    let msg : Msg := ⟨signer, 0, m.block, env.moment⟩
    (Permits D i (m.world.storage.escrows i) msg call ∧ env.accepts = true ∧
        ∃ e t, m.transact D signer call env = { m with
          worlds := m.worlds.set
            (m.world.afterTransfer msg call (m.world.storage.settling i) e t).unlock }) ∨
      (¬(Permits D i (m.world.storage.escrows i) msg call ∧ env.accepts = true) ∧
        m.transact D signer call env = m) := by
  intro msg
  have hsender : msg.sender ≠ D.self := hself
  obtain ⟨begun, hbegun, hok⟩ := exists_begun (m := m) hsender hcall
  have htransact : m.transact D signer call env =
      (m.payOut msg call begun).payoutReturns env.accepts := by
    rw [← hbegun]
    rfl
  have hpaid (s : Storage) (e : Event) (t : Transfer) (h : begun = .ok (s, e, t)) :
      t.amount.toNat ≤ m.world.balance := by
    obtain ⟨-, -, hauth, -⟩ := (hok s e t).mp h
    have hunsettled := Permits.unsettled ⟨e, t, hauth⟩
    cases hauth with
    | release => exact hpay hunsettled
    | refund => exact hpay hunsettled
  rw [htransact]
  rcases payoutReturns_cases hidle hpaid env.accepts with
    ⟨s, e, t, hbegin, haccepts, heq⟩ | ⟨hfails, heq⟩
  · obtain ⟨-, -, hauth, rfl⟩ := (hok s e t).mp hbegin
    exact .inl ⟨⟨e, t, hauth⟩, haccepts, e, t, heq⟩
  · refine .inr ⟨fun ⟨⟨e, t, hauth⟩, haccepts⟩ ↦ ?_, heq⟩
    have hbegin := (hok _ e t).mpr ⟨rfl, hguard, hauth, rfl⟩
    exact Bool.false_ne_true ((hfails _ hbegin).symm.trans haccepts)

theorem Machine.Idle.roll (hidle : m.Idle) (n : ℕ) : (m.run D [.roll n]).Idle := by
  change (m.step D (.roll n)).Idle
  rw [step]
  split <;> exact hidle

theorem Machine.le_run_block (D : Deployment) (m : Machine) (actions : List Action) :
    m.block ≤ (m.run D actions).block :=
  run_induction (I := fun m' : Machine ↦ m.block ≤ m'.block)
    (fun m' a h ↦ h.trans (m'.le_step_block D a)) le_rfl actions

theorem Lives.permits_iff {i : Word} {r now : EscrowDB} {past : List Entry}
    (h : Lives D i r now past) (hr : r.settled = false) {msg : Msg} {call : Call} :
    Permits D i now msg call ↔ Permits D i r msg call ∧ now.settled = false := by
  rcases h with ⟨rfl, -⟩ | ⟨rfl, -⟩
  · rw [hr, and_iff_left rfl]
  · exact iff_of_false (fun h ↦ Bool.false_ne_true h.unsettled.symm)
      fun h ↦ Bool.false_ne_true h.2.symm

section

variable (D) (forced block : ℕ) (actions : List Action)

theorem Machine.payable (i : Word)
    (h : (((init forced block).run D actions).world.storage.escrows i).settled = false) :
    (((init forced block).run D actions).world.storage.escrows i).amount.toNat
      ≤ ((init forced block).run D actions).world.balance := by
  rw [← due_of_unsettled h, (solvent D forced block actions).balance]
  exact (due_le_outstanding _ i).trans (Nat.le_add_right _ _)

/-- An escrow that was not released by now was refunded when that was open, or is held. -/
theorem Machine.payout_released {i : Word} {r : EscrowDB} {p : Entry}
    (hp : p ∈ payouts i ((init forced block).run D actions).world.log)
    (hauth : Authorized D i r p) : p.transfer = some ⟨r.recipient, r.amount⟩ ∨
      p.transfer = some ⟨r.sender, r.amount⟩ ∧ r.cancelAfter ≠ 0 ∧
        r.cancelAfter.toNat ≤ ((init forced block).run D actions).block := by
  cases hauth with
  | release h => exact .inl rfl
  | @refund msg h =>
    have hfollows := follows D forced block actions
    have hmem : Deposits.Event.settle msg.block i msg.sender .returned
        ∈ history ((init forced block).run D actions).world.log :=
      List.mem_filterMap.mpr ⟨_, (List.mem_filter.mp hp).1, rfl⟩
    have htime := hfollows.history.time_le _ hmem
    exact .inr ⟨rfl, h.enabled, h.time.trans (htime.trans hfollows.clock)⟩

variable {D forced block actions}

/-- An estimate does not revert exactly if the record as created allows the call, the escrow is not
settled and the payee takes the ETH. -/
theorem Machine.estimate_iff (hidle : ((init forced block).run D actions).Idle) {i : Word}
    {r : EscrowDB} (hr : (i, r) ∈ creations ((init forced block).run D actions).world.log)
    {signer : Address} (hself : signer ≠ D.self) {call : Call} (hcall : call.Settles i)
    {env : Encounter} :
    let m := (init forced block).run D actions
    (m.transact D signer call env).world.log ≠ m.world.log ↔
      Permits D i r ⟨signer, 0, m.block, env.moment⟩ call ∧
        (m.world.storage.escrows i).settled = false ∧ env.accepts = true := by
  intro m
  have hrec := recorded D forced block actions
  rw [← and_assoc, ← (hrec.lives i r hr).permits_iff (hrec.created i r hr).1]
  rcases transact_cases hidle
    (guard_clear D forced block actions hidle.nonReentrant) hself hcall env
    (payable D forced block actions i) with ⟨hok, haccepts, e, t, heq⟩ | ⟨hno, heq⟩
  · rw [heq]
    refine iff_of_true (fun hlog ↦ ?_) ⟨hok, haccepts⟩
    have happend := List.self_eq_append_right.mp hlog.symm
    exact List.cons_ne_nil _ _ happend
  · rw [heq]
    exact iff_of_false (fun hne ↦ hne rfl) hno

/-- A settling transaction that the record as created allows leaves the escrow settled, by itself or
by what came before: released, or refunded if that was open by then. -/
theorem Machine.transact_settled (hidle : ((init forced block).run D actions).Idle) {i : Word}
    {r : EscrowDB} (hr : (i, r) ∈ creations ((init forced block).run D actions).world.log)
    {signer : Address} (hself : signer ≠ D.self) {call : Call} (hcall : call.Settles i)
    {env : Encounter} (hpermits : Permits D i r
      ⟨signer, 0, ((init forced block).run D actions).block, env.moment⟩ call)
    (haccepts : env.accepts = true) :
    let m' := ((init forced block).run D actions).transact D signer call env
    m'.world.storage.escrows i = r.settle ∧ ∃ p, payouts i m'.world.log = [p] ∧
      (p.transfer = some ⟨r.recipient, r.amount⟩ ∨ p.transfer = some ⟨r.sender, r.amount⟩ ∧
        r.cancelAfter ≠ 0 ∧ r.cancelAfter.toNat ≤ m'.block) := by
  intro m'
  have hrec := recorded D forced block actions
  have hunsettled := (hrec.created i r hr).1
  -- The transaction is the end of a run too.
  have hrun : m' = (init forced block).run D (actions ++
      [.call signer 0 env.moment call, .payoutReturns env.accepts]) := by
    rw [run, run_append]
    rfl
  have hrec' := recorded D forced block (actions ++
    [.call signer 0 env.moment call, .payoutReturns env.accepts])
  rw [← hrun] at hrec'
  have hend : (m'.world.storage.escrows i).settled = true ∧ (i, r) ∈ creations m'.world.log := by
    rcases transact_cases hidle
      (guard_clear D forced block actions hidle.nonReentrant) hself hcall env
      (payable D forced block actions i) with ⟨-, -, e, t, heq⟩ | ⟨hno, heq⟩
    · have hsettled : (m'.world.storage.escrows i).settled = true := by
        rw [show m' = _ from heq]
        change ((((init forced block).run D actions).world.storage.settling i).escrows i).settled
          = true
        rw [Storage.settling_escrows_self]
        rfl
      refine ⟨hsettled, ?_⟩
      rw [show m' = _ from heq]
      exact ((List.prefix_append _ _).filterMap Entry.creation).subset hr
    · have hnow : ¬(((init forced block).run D actions).world.storage.escrows i).settled = false :=
        fun h ↦ hno
          ⟨((hrec.lives i r hr).permits_iff hunsettled).mpr ⟨hpermits, h⟩, haccepts⟩
      rw [show m' = _ from heq]
      exact ⟨Bool.eq_true_of_not_eq_false hnow, hr⟩
  obtain ⟨hsettled, hr'⟩ := hend
  rcases hrec'.lives i r hr' with ⟨hnow, -⟩ | ⟨hnow, p, hpast, hauth⟩
  · rw [hnow, hunsettled] at hsettled
    exact absurd hsettled Bool.false_ne_true
  · refine ⟨hnow, p, hpast, ?_⟩
    have hp : p ∈ payouts i m'.world.log := by
      rw [hpast]
      exact List.mem_singleton_self p
    rw [hrun] at hp ⊢
    exact payout_released D forced block _ hp hauth

end

end Zescrow.Ethereum
