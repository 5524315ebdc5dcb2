import Zescrow.Ethereum.Exit
import Zescrow.Ethereum.Window
import Zescrow.Foundation.Deposit

/-!
# The contract as a protocol of deposits

What a log says has happened is a history of deposits: who locked how much for whom, and when and
at whose call each deposit was released or returned. The histories of the contract are those of the
abstract protocol under the contract's own rules, which say how ids are given out, who can be paid,
and what proof a release takes. No run shows another history, whatever calls it nests and reverts;
and every such history is shown by some run, so the contract forbids nothing besides.
-/

open Foundation Foundation.Deposits

namespace Zescrow.Ethereum

/-- The terms of an escrow. -/
def EscrowDB.deal (r : EscrowDB) : Deal Address Word where
  depositor := r.sender
  beneficiary := r.recipient
  amount := r.amount.toNat
  lock := r.timeLock
  condition := if r.conditionId = 0 then none else some r.conditionId

/-- What an entry says has happened. -/
def Entry.happening (e : Entry) : Option (Deposits.Event Word Address Word) :=
  match e.call with
  | .createEscrow .. => e.creation.map fun c ↦ .deposit e.msg.block c.1 e.msg.sender c.2.deal
  | .finishEscrow i .. => some (.settle e.msg.block i e.msg.sender .released)
  | .cancelEscrow i => some (.settle e.msg.block i e.msg.sender .returned)

/-- What a log says has happened. -/
def history (log : List Entry) : List (Deposits.Event Word Address Word) :=
  log.filterMap Entry.happening

/-- The ids below `i` are in use, and no other. -/
def Next (status : Word → Status Address Word) (i : Word) : Prop :=
  0 < i.toNat ∧ ∀ j, status j ≠ .vacant ↔ 0 < j.toNat ∧ j.toNat < i.toNat

/-- A proof that releases an escrow with these terms. -/
def Proven (D : Deployment) (i : Word) (d : Deal Address Word) : Prop :=
  ∃ r : EscrowDB, r.deal = d ∧ r.settled = false ∧ ∃ moment receiptSeal journal,
    checkJournalBinding D.self r i journal = .ok () ∧
      D.verify moment receiptSeal D.imageId (D.sha256 journal) = true

/-- The rules of the contract: ids are consecutive, the contract itself is no party that acts, and a
conditioned deposit is released with a proof. -/
def contractRules (D : Deployment) : Rules Word Address Word where
  admits status i d := Next status i ∧ d.beneficiary ≠ 0 ∧ d.depositor ≠ D.self ∧
    ∃ r : EscrowDB, r.deal = d
  settles i d fate := d.depositor ≠ 0 ∧ d.payee fate ≠ D.self ∧
    (fate = .released → d.condition ≠ none → Proven D i d)

/-! ## Terms and records -/

theorem deadline_inj {t t' : Word} (h : deadline t = deadline t') : t = t' := by
  have hnat := congrArg (·.getD 0) h
  simp only [getD_deadline] at hnat
  exact BitVec.eq_of_toNat_eq hnat

theorem conditionOf_inj {k k' : Word}
    (h : (if k = 0 then none else some k) = if k' = 0 then none else some k') : k = k' := by
  by_cases hk : k = 0
  · by_cases hk' : k' = 0
    · rw [hk, hk']
    · rw [if_pos hk, if_neg hk'] at h
      exact absurd h.symm (Option.some_ne_none k')
  · by_cases hk' : k' = 0
    · rw [if_neg hk, if_pos hk'] at h
      exact absurd h (Option.some_ne_none k)
    · rw [if_neg hk, if_neg hk'] at h
      exact Option.some.inj h

theorem EscrowDB.deal_inj {r r' : EscrowDB} (h : r.deal = r'.deal) (hs : r.settled = r'.settled) :
    r = r' := by
  obtain ⟨sender, recipient, amount, finishAfter, cancelAfter, conditionId, settled⟩ := r
  obtain rfl : settled = r'.settled := hs
  injection h with hsender hrecipient hamount hlock hcondition
  injection hlock with hfinish hcancel
  obtain rfl : sender = r'.sender := hsender
  obtain rfl : recipient = r'.recipient := hrecipient
  obtain rfl : amount = r'.amount := BitVec.eq_of_toNat_eq hamount
  obtain rfl : finishAfter = r'.finishAfter := deadline_inj hfinish
  obtain rfl : cancelAfter = r'.cancelAfter := deadline_inj hcancel
  obtain rfl : conditionId = r'.conditionId := conditionOf_inj hcondition
  rfl

theorem EscrowDB.deal_condition_ne_none {r : EscrowDB} :
    r.deal.condition ≠ none ↔ r.conditionId ≠ 0 := by
  rw [deal, Ne, ite_eq_left_iff]
  simp

/-- The record `now` is that of a deposit with this status. -/
def Reflects (now : EscrowDB) : Status Address Word → Prop
  | .vacant => now = .unset
  | .held d => now.settled = false ∧ now.deal = d
  | .settled d _ => ∃ r : EscrowDB, r.deal = d ∧ now = r.settle

theorem Reflects.held {now : EscrowDB} {status : Status Address Word} (h : Reflects now status)
    (hsender : now.sender ≠ 0) (hunsettled : now.settled = false) : status = .held now.deal := by
  cases status with
  | vacant =>
    obtain rfl : now = .unset := h
    exact absurd rfl hsender
  | held d => rw [h.2]
  | settled d fate =>
    obtain ⟨r, -, rfl⟩ := h
    exact absurd hunsettled.symm Bool.false_ne_true

/-! ## Every log shows a history -/

theorem history_append (log : List Entry) (e : Entry) :
    history (log ++ [e]) = history log ++ e.happening.toList := by
  rw [history, List.filterMap_append, history, List.filterMap_cons]
  cases e.happening <;> rfl

/-- The state of the protocol that a log leads to. -/
def stateOf (start : ℕ) (log : List Entry) : State Word Address Word :=
  (State.init start).run (history log)

theorem stateOf_append {start : ℕ} {log : List Entry} {e : Entry}
    {event : Deposits.Event Word Address Word} (h : e.happening = some event) :
    stateOf start (log ++ [e]) = (stateOf start log).step event := by
  rw [stateOf, history_append, h, State.run, run_append]
  rfl

/-- The log shows a history that is not later than block `b`, and leads to the storage. -/
structure Follows (D : Deployment) (start b : ℕ) (s : Storage) (log : List Entry) : Prop where
  history : (contractRules D).History start (history log)
  clock : (stateOf start log).clock ≤ b
  ids : ∀ i, (stateOf start log).status i ≠ .vacant ↔ s.Issued i
  records : ∀ i, Reflects (s.escrows i) ((stateOf start log).status i)

theorem Follows.init (D : Deployment) {start b : ℕ} (h : start ≤ b) :
    Follows D start b .init [] where
  history := history_nil start
  clock := h
  ids := fun _ ↦ iff_of_false (fun hne ↦ hne rfl) fun hi ↦ absurd hi.2 (Nat.not_le.mpr hi.1)
  records := fun _ ↦ rfl

variable {D : Deployment} {start b : ℕ} {s : Storage} {log : List Entry}

theorem Follows.mono {b' : ℕ} (h : Follows D start b s log) (hb : b ≤ b') :
    Follows D start b' s log :=
  ⟨h.history, h.clock.trans hb, h.ids, h.records⟩

theorem Follows.next (h : Follows D start b s log) (hlt : s.nextEscrowId.toNat + 1 < 2 ^ 256) :
    Next (stateOf start log).status (s.nextEscrowId + 1) := by
  rw [Next, toNat_succ hlt]
  refine ⟨Nat.succ_pos _, fun j ↦ (h.ids j).trans ?_⟩
  rw [Storage.Issued, Nat.lt_succ_iff]

theorem Follows.create (h : Follows D start b s log) {msg : Msg} {recipient : Address}
    {finishAfter cancelAfter conditionId : Word} {s' : Storage} {e : Event} (hblock : msg.block = b)
    (hself : msg.sender ≠ D.self)
    (hcreate : createEscrow msg recipient finishAfter cancelAfter conditionId s = .ok (s', e)) :
    Follows D start b s' (log ++
      [⟨msg, .createEscrow recipient finishAfter cancelAfter conditionId, e, none⟩]) := by
  obtain ⟨hrecipient, hvalue, hlocked, hdeadline, hordered, hlt, rfl, rfl⟩ :=
    createEscrow_eq_ok.mp hcreate
  let r := newEscrow msg recipient finishAfter cancelAfter conditionId
  have hvacant : (stateOf start log).status (s.nextEscrowId + 1) = .vacant := by
    by_contra hne
    exact Storage.not_issued_succ hlt ((h.ids _).mp hne)
  have hpos : 0 < msg.value.toNat :=
    Nat.pos_of_ne_zero fun hzero ↦ hvalue (BitVec.eq_of_toNat_eq hzero)
  have hadmissible : r.timeLock.Admissible (conditionId ≠ 0) :=
    EscrowDB.admissible_iff.mpr ⟨hlocked, hdeadline, hordered⟩
  have hallows : (contractRules D).Allows (stateOf start log)
      (.deposit b (s.nextEscrowId + 1) msg.sender r.deal) := by
    refine ⟨h.clock, hvacant, rfl, hpos, ?_, h.next hlt, hrecipient, hself, r, rfl⟩
    rw [EscrowDB.deal_condition_ne_none]
    exact hadmissible
  have hentry : (Entry.mk msg (.createEscrow recipient finishAfter cancelAfter conditionId)
      (.escrowCreated (s.nextEscrowId + 1) msg.sender recipient msg.value finishAfter cancelAfter
        conditionId) none).happening =
          some (.deposit b (s.nextEscrowId + 1) msg.sender r.deal) := by
    rw [← hblock]
    rfl
  constructor
  · rw [history_append, hentry]
    exact Deposits.history_append.mpr ⟨h.history, hallows⟩
  · rw [stateOf_append hentry]
    exact le_rfl
  · intro i
    rw [stateOf_append hentry, Storage.issued_issue_iff hlt]
    by_cases hi : i = s.nextEscrowId + 1
    · subst hi
      rw [State.step_deposit_self]
      exact iff_of_true nofun (.inr rfl)
    · rw [State.step_deposit_of_ne hi, or_iff_left hi]
      exact h.ids i
  · intro i
    rw [stateOf_append hentry]
    by_cases hi : i = s.nextEscrowId + 1
    · subst hi
      rw [State.step_deposit_self, Storage.issue_escrows_self]
      exact ⟨rfl, rfl⟩
    · rw [State.step_deposit_of_ne hi, Storage.issue_escrows_of_ne hi]
      exact h.records i

theorem Follows.settle (h : Follows D start b s log) {i : Word} (fate : Fate) {p : Entry}
    (hcaller : p.msg.sender = (s.escrows i).deal.payee fate)
    (hsender : (s.escrows i).sender ≠ 0) (hunsettled : (s.escrows i).settled = false)
    (hopen : (s.escrows i).deal.Open b fate)
    (hsettles : (contractRules D).settles i (s.escrows i).deal fate)
    (hp : p.happening = some (.settle b i p.msg.sender fate)) :
    Follows D start b (s.settling i) (log ++ [p]) := by
  have hheld := (h.records i).held hsender hunsettled
  constructor
  · rw [history_append, hp]
    exact Deposits.history_append.mpr ⟨h.history, h.clock, _, hheld, hcaller, hopen, hsettles⟩
  · rw [stateOf_append hp]
    exact le_rfl
  · intro j
    rw [stateOf_append hp]
    refine Iff.trans ?_ (h.ids j)
    by_cases hj : j = i
    · subst hj
      rw [State.step_settle_self hheld, hheld]
      exact iff_of_true nofun nofun
    · rw [State.step_settle_of_ne hj]
  · intro j
    rw [stateOf_append hp]
    by_cases hj : j = i
    · subst hj
      rw [State.step_settle_self hheld, Storage.settling_escrows_self]
      exact ⟨_, rfl, rfl⟩
    · rw [State.step_settle_of_ne hj, Storage.settling_escrows_of_ne hj]
      exact h.records j

theorem Follows.step {w w' : World} (hstep : WorldStep D w w')
    (hlog : ∀ e, w'.log = w.log ++ [e] → e.msg.block = b ∧ e.msg.sender ≠ D.self)
    (h : Follows D start b w.storage w.log) : Follows D start b w'.storage w'.log := by
  cases hstep with
  | create hcreate =>
    obtain ⟨hblock, hself⟩ := hlog _ rfl
    exact h.create hblock hself hcreate
  | finish hfinish hpay =>
    obtain ⟨hblock, hself⟩ := hlog _ rfl
    obtain ⟨-, -, hallowed, rfl, rfl, rfl⟩ := beginFinish_eq_ok.mp hfinish
    refine h.settle .released hallowed.caller hallowed.exists_ hallowed.unsettled ?_
      ⟨hallowed.exists_, ?_, ?_⟩ ?_
    · rw [← hblock]
      exact EscrowDB.finishOpen_iff.mpr (not_early_iff.mpr hallowed.time)
    · rw [hallowed.caller] at hself
      exact hself
    · intro _ hcond
      have hproof := hallowed.proof (EscrowDB.deal_condition_ne_none.mp hcond)
      exact ⟨_, rfl, hallowed.unsettled, _, _, _, hproof⟩
    · rw [← hblock]
      rfl
  | cancel hcancel hpay =>
    obtain ⟨hblock, hself⟩ := hlog _ rfl
    obtain ⟨-, -, hallowed, rfl, rfl, rfl⟩ := beginCancel_eq_ok.mp hcancel
    refine h.settle .returned hallowed.caller hallowed.exists_ hallowed.unsettled ?_
      ⟨hallowed.exists_, ?_, nofun⟩ ?_
    · rw [← hblock]
      exact EscrowDB.cancelOpen_iff.mpr ⟨hallowed.enabled, Nat.not_lt.mpr hallowed.time⟩
    · rw [hallowed.caller] at hself
      exact hself
    · rw [← hblock]
      rfl
  | unlock => exact ⟨h.history, h.clock, h.ids, h.records⟩
  | force value => exact h

theorem Machine.payOut_block (m : Machine) (msg : Msg) (call : Call)
    (begun : Except Revert (Storage × Event × Transfer)) :
    (m.payOut msg call begun).block = m.block := by
  unfold payOut
  split
  · rfl
  · split <;> rfl

theorem Machine.call_block (D : Deployment) (m : Machine) (msg : Msg) (call : Call) :
    (m.call D msg call).block = m.block := by
  unfold Machine.call
  split
  · rfl
  · split
    · split <;> rfl
    · exact payOut_block ..
    · exact payOut_block ..

theorem Machine.le_step_block (D : Deployment) (m : Machine) (a : Action) :
    m.block ≤ (m.step D a).block := by
  cases a with
  | roll block =>
    rw [step]
    split
    · next h => exact h.2
    · exact le_rfl
  | call sender value moment call => exact (m.call_block D _ call).ge
  | payoutReturns ok =>
    rw [step, payoutReturns]
    split <;> exact le_rfl
  | leave reverted =>
    rw [step, leave]
    split <;> exact le_rfl
  | enter | force => exact le_rfl

/-- Every world a run reaches shows a history, inside calls and outside. -/
theorem Machine.follows (D : Deployment) (forced block : ℕ) (actions : List Action) :
    let m := (init forced block).run D actions
    Follows D block m.block m.world.storage m.world.log := by
  let I (m : Machine) : Prop :=
    Checkpointed.All (fun w ↦ Follows D block m.block w.storage w.log) m.worlds
  have hstep (m : Machine) (a : Action) (hm : I m) : I (m.step D a) := by
    have hmoves : Checkpointed.All (fun w ↦ Follows D block m.block w.storage w.log)
        (m.step D a).worlds := by
      refine hm.moves (fun w w' hdoes hw ↦ hw.step hdoes.1 fun e he ↦ ?_) (m.step_does D a)
      obtain ⟨sender, value, moment, -, hmsg, hself⟩ := hdoes.2 e he
      rw [hmsg]
      exact ⟨rfl, hself⟩
    have hle := m.le_step_block D a
    exact ⟨hmoves.1.mono hle, fun s hs ↦ (hmoves.2 s hs).mono hle⟩
  have hinit : I (init forced block) := Checkpointed.all_start (Follows.init D le_rfl)
  exact (run_induction hstep hinit actions).1

/-! ## Calls at a later block -/

theorem Machine.run_creating {m : Machine} (hidle : m.Idle) {n : ℕ} (hn : m.block ≤ n)
    {sender : Address} {value : Word} {moment : ℕ} (hself : sender ≠ D.self) {recipient : Address}
    {finishAfter cancelAfter conditionId : Word} {s : Storage} {e : Event}
    (hcreate : createEscrow ⟨sender, value, n, moment⟩ recipient finishAfter cancelAfter conditionId
      m.world.storage = .ok (s, e)) :
    m.run D [.roll n,
        .call sender value moment (.createEscrow recipient finishAfter cancelAfter conditionId)] =
      { worlds := m.worlds.set (m.world.afterCreate ⟨sender, value, n, moment⟩
          (.createEscrow recipient finishAfter cancelAfter conditionId) s e)
        block := n } := by
  have hcall : (m.step D (.roll n)).step D
      (.call sender value moment (.createEscrow recipient finishAfter cancelAfter conditionId)) =
      { worlds := m.worlds.set (m.world.afterCreate ⟨sender, value, n, moment⟩
          (.createEscrow recipient finishAfter cancelAfter conditionId) s e)
        block := n } := by
    have hworld : ({ m with block := n } : Machine).world = m.world := rfl
    rw [step_roll hn (.inl hidle), step]
    unfold Machine.call
    rw [if_neg hself]
    simp only [hworld, hcreate]
  exact hcall

theorem Machine.run_settling {m : Machine} (hidle : m.Idle) {n : ℕ} (hn : m.block ≤ n)
    {sender : Address} {moment : ℕ} {call : Call} {s : Storage} {e : Event} {t : Transfer}
    (hcall : ({ m with block := n } : Machine).call D ⟨sender, 0, n, moment⟩ call =
      ({ m with block := n } : Machine).payOut ⟨sender, 0, n, moment⟩ call (.ok (s, e, t)))
    (hpay : t.amount.toNat ≤ m.world.balance) :
    m.run D [.roll n, .call sender 0 moment call, .payoutReturns true] =
      { worlds := m.worlds.set (m.world.afterTransfer ⟨sender, 0, n, moment⟩ call s e t).unlock
        block := n } := by
  change ((m.step D (.roll n)).call D ⟨sender, 0, (m.step D (.roll n)).block, moment⟩
    call).payoutReturns true = _
  rw [step_roll hn (.inl hidle), hcall, payoutReturns_payOut (m := { m with block := n }) hpay]
  rfl

/-! ## Every history is shown by a log -/

theorem Follows.eq_succ (h : Follows D start b s log) {i : Word}
    (hnext : Next (stateOf start log).status i) :
    s.nextEscrowId.toNat + 1 < 2 ^ 256 ∧ i = s.nextEscrowId + 1 := by
  obtain ⟨hpos, hids⟩ := hnext
  have hissued (j : Word) : 0 < j.toNat ∧ j.toNat < i.toNat ↔ s.Issued j :=
    (hids j).symm.trans (h.ids j)
  have hle : s.nextEscrowId.toNat < i.toNat := by
    by_contra hlt
    exact absurd ((hissued i).mpr ⟨hpos, Nat.le_of_not_lt hlt⟩).2 (Nat.lt_irrefl _)
  have hlt : s.nextEscrowId.toNat + 1 < 2 ^ 256 := (Nat.succ_le_of_lt hle).trans_lt i.isLt
  refine ⟨hlt, BitVec.eq_of_toNat_eq ?_⟩
  have hnot := mt (hissued (s.nextEscrowId + 1)).mp (Storage.not_issued_succ hlt)
  rw [toNat_succ hlt] at hnot ⊢
  omega

theorem Machine.call_finish {m : Machine} {msg : Msg} {i : Word} {receiptSeal journal : Bytes}
    {r : Storage × Event × Transfer} (hself : msg.sender ≠ D.self)
    (h : beginFinish D msg i receiptSeal journal m.world.storage = .ok r) :
    m.call D msg (.finishEscrow i receiptSeal journal)
      = m.payOut msg (.finishEscrow i receiptSeal journal) (.ok r) := by
  unfold Machine.call
  rw [if_neg hself]
  simp only [h]

theorem Machine.call_cancel {m : Machine} {msg : Msg} {i : Word} {r : Storage × Event × Transfer}
    (hself : msg.sender ≠ D.self) (h : beginCancel msg i m.world.storage = .ok r) :
    m.call D msg (.cancelEscrow i) = m.payOut msg (.cancelEscrow i) (.ok r) := by
  unfold Machine.call
  rw [if_neg hself]
  simp only [h]

/-- The run has brought the machine outside all calls, to the block of the last event, and its log
shows `events`. -/
structure Shows (D : Deployment) (start : ℕ) (m : Machine)
    (events : List (Deposits.Event Word Address Word)) : Prop where
  idle : m.Idle
  block : m.block = ((State.init start).run events).clock
  history : history m.world.log = events

section

variable {m : Machine} {events : List (Deposits.Event Word Address Word)}

theorem Shows.exists_deposit (h : Shows D start m events)
    (hfollows : Follows D start m.block m.world.storage m.world.log) {n : ℕ} {i : Word}
    {caller : Address} {d : Deal Address Word}
    (hallows : (contractRules D).Allows ((State.init start).run events) (.deposit n i caller d)) :
    ∃ actions, Shows D start (m.run D actions) (events ++ [.deposit n i caller d]) := by
  obtain ⟨hn, -, rfl, hamount, hadmissible, hnext, hrecipient, hself, r, rfl⟩ := hallows
  rw [← h.block] at hn
  rw [← h.history] at hnext
  obtain ⟨hlt, rfl⟩ := hfollows.eq_succ hnext
  rw [EscrowDB.deal_condition_ne_none] at hadmissible
  obtain ⟨hlocked, hdeadline, hordered⟩ := EscrowDB.admissible_iff.mp hadmissible
  have hvalue : r.amount ≠ 0 := by
    intro hzero
    rw [EscrowDB.deal, hzero] at hamount
    exact absurd hamount (Nat.lt_irrefl 0)
  have hcreate : createEscrow ⟨r.sender, r.amount, n, 0⟩ r.recipient r.finishAfter r.cancelAfter
      r.conditionId m.world.storage = .ok (m.world.storage.issue _, _) :=
    createEscrow_eq_ok.mpr ⟨hrecipient, hvalue, hlocked, hdeadline, hordered, hlt, rfl, rfl⟩
  refine ⟨[.roll n, .call r.sender r.amount 0
    (.createEscrow r.recipient r.finishAfter r.cancelAfter r.conditionId)], ?_⟩
  rw [Machine.run_creating h.idle hn (show r.sender ≠ D.self from hself) hcreate]
  refine ⟨h.idle, ?_, ?_⟩
  · rw [State.run, run_append]
    rfl
  · rw [← h.history]
    exact history_append _ _

theorem Shows.settle (h : Shows D start m events) {n : ℕ} {i : Word} {caller : Address}
    {fate : Fate} {msg : Msg} {call : Call} {s : Storage} {e : Event} {t : Transfer}
    (hentry : (Entry.mk msg call e (some t)).happening = some (.settle n i caller fate)) :
    Shows D start
      { worlds := m.worlds.set (m.world.afterTransfer msg call s e t).unlock, block := n }
      (events ++ [.settle n i caller fate]) := by
  refine ⟨h.idle, ?_, ?_⟩
  · rw [State.run, run_append]
    rfl
  · have hlog := history_append m.world.log (Entry.mk msg call e (some t))
    rw [hentry, h.history] at hlog
    exact hlog

theorem Shows.exists_settle (h : Shows D start m events)
    (hfollows : Follows D start m.block m.world.storage m.world.log)
    (hguard : m.world.storage.entered = false)
    (hpay : ∀ i, (m.world.storage.escrows i).settled = false →
      (m.world.storage.escrows i).amount.toNat ≤ m.world.balance) {n : ℕ} {i : Word}
    {caller : Address} {fate : Fate}
    (hallows :
      (contractRules D).Allows ((State.init start).run events) (.settle n i caller fate)) :
    ∃ actions, Shows D start (m.run D actions) (events ++ [.settle n i caller fate]) := by
  obtain ⟨hn, d, hheld, rfl, hopen, hsender, hself, hproof⟩ := hallows
  rw [← h.block] at hn
  have hrecord := hfollows.records i
  rw [stateOf, h.history, hheld] at hrecord
  obtain ⟨hunsettled, rfl⟩ := hrecord
  let r := m.world.storage.escrows i
  cases fate with
  | released =>
    -- A seal and a journal that release the escrow, if it takes any.
    have hexists : ∃ moment receiptSeal journal,
        FinishAllowed D ⟨r.recipient, 0, n, moment⟩ i receiptSeal journal r := by
      have htime : r.finishAfter.toNat ≤ n := not_early_iff.mp (EscrowDB.finishOpen_iff.mp hopen)
      by_cases hcond : r.conditionId = 0
      · exact ⟨0, [], [], hsender, rfl, hunsettled, htime, fun hne ↦ absurd hcond hne⟩
      · obtain ⟨r', hr', hunsettled', moment, receiptSeal, journal, hjournal, hverify⟩ :=
          hproof rfl (EscrowDB.deal_condition_ne_none.mpr hcond)
        obtain rfl : r' = r := EscrowDB.deal_inj hr' (hunsettled'.trans hunsettled.symm)
        exact ⟨moment, receiptSeal, journal, hsender, rfl, hunsettled, htime,
          fun _ ↦ ⟨hjournal, hverify⟩⟩
    obtain ⟨moment, receiptSeal, journal, hallowed⟩ := hexists
    have hbegin := beginFinish_eq_ok.mpr ⟨rfl, hguard, hallowed, rfl, rfl, rfl⟩
    refine ⟨[.roll n, .call r.recipient 0 moment (.finishEscrow i receiptSeal journal),
      .payoutReturns true], ?_⟩
    have hself' : r.recipient ≠ D.self := hself
    rw [Machine.run_settling h.idle hn (Machine.call_finish hself' hbegin) (hpay i hunsettled)]
    exact h.settle rfl
  | returned =>
    obtain ⟨hcancel, htime⟩ := EscrowDB.cancelOpen_iff.mp hopen
    have hallowed : CancelAllowed ⟨r.sender, 0, n, 0⟩ r :=
      ⟨hsender, rfl, hunsettled, hcancel, Nat.le_of_not_lt htime⟩
    have hbegin := beginCancel_eq_ok.mpr ⟨rfl, hguard, hallowed, rfl, rfl, rfl⟩
    refine ⟨[.roll n, .call r.sender 0 0 (.cancelEscrow i), .payoutReturns true], ?_⟩
    have hself' : r.sender ≠ D.self := hself
    rw [Machine.run_settling h.idle hn (Machine.call_cancel hself' hbegin) (hpay i hunsettled)]
    exact h.settle rfl

end

/-- **The contract is the protocol.** The logs of the contract, in every state a run reaches, inside
calls and outside, show the histories of the deposit protocol under the rules of the contract, each
event with the caller that made it, and they show all of them. -/
theorem Machine.logs_show_histories (D : Deployment) (forced block : ℕ)
    (events : List (Deposits.Event Word Address Word)) :
    (contractRules D).History block events ↔
      ∃ actions, history ((init forced block).run D actions).world.log = events := by
  constructor
  · intro hevents
    have hshows : ∃ actions, Shows D block ((init forced block).run D actions) events := by
      induction events using List.reverseRecOn with
      | nil => exact ⟨[], rfl, rfl, rfl⟩
      | append_singleton events event ih =>
        obtain ⟨hevents, hallows⟩ := Deposits.history_append.mp hevents
        obtain ⟨actions, h⟩ := ih hevents
        have hfollows := follows D forced block actions
        have hnext : ∃ later, Shows D block (((init forced block).run D actions).run D later)
            (events ++ [event]) := by
          cases event with
          | deposit n i caller d => exact h.exists_deposit hfollows hallows
          | settle n i caller fate =>
            refine h.exists_settle hfollows
              (guard_clear D forced block actions h.idle.nonReentrant) (fun i hi ↦ ?_) hallows
            rw [← due_of_unsettled hi, (solvent D forced block actions).balance]
            exact (due_le_outstanding _ i).trans (Nat.le_add_right _ _)
        obtain ⟨later, hlater⟩ := hnext
        refine ⟨actions ++ later, ?_⟩
        rw [Machine.run, run_append]
        exact hlater
    obtain ⟨actions, h⟩ := hshows
    exact ⟨actions, h.history⟩
  · rintro ⟨actions, rfl⟩
    exact (follows D forced block actions).history

end Zescrow.Ethereum
