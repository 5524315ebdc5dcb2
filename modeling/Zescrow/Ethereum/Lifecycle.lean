import Zescrow.Ethereum.Machine

/-!
# The life of an escrow on the EVM

The log of a world determines its storage. An id that was issued has one creation in the log, and
its slot holds the record of that creation, untouched or settled; it is settled exactly when the log
holds a payout for it, and there is at most one. Each payout was allowed by the record as created.

A log outside all calls is a prefix of every later log, so what holds of an escrow through its
creation holds of it from then on.
-/

open Foundation

namespace Zescrow.Ethereum

/-! ## Reading a log -/

/-- The id an entry issues, and the record its call creates: the deposit is the value sent. -/
def Entry.creation (e : Entry) : Option (Word × EscrowDB) :=
  match e.call, e.event with
  | .createEscrow recipient finishAfter cancelAfter conditionId, .escrowCreated escrowId .. =>
    some (escrowId, newEscrow e.msg recipient finishAfter cancelAfter conditionId)
  | _, _ => none

/-- The id an entry settles. -/
def Entry.settles (e : Entry) : Option Word :=
  match e.call with
  | .createEscrow .. => none
  | .finishEscrow escrowId .. | .cancelEscrow escrowId => some escrowId

/-- The ids issued, each with its record as created. -/
def creations (log : List Entry) : List (Word × EscrowDB) := log.filterMap Entry.creation

/-- The payouts made for an id. -/
def payouts (i : Word) (log : List Entry) : List Entry := log.filter (·.settles = some i)

theorem creations_append (log : List Entry) (e : Entry) :
    creations (log ++ [e]) = creations log ++ e.creation.toList := by
  rw [creations, List.filterMap_append, creations, List.filterMap_cons]
  cases e.creation <;> rfl

theorem payouts_append_of_ne {i : Word} {log : List Entry} {e : Entry} (h : e.settles ≠ some i) :
    payouts i (log ++ [e]) = payouts i log := by
  rw [payouts, List.filter_append, List.filter_singleton]
  simp [h, payouts]

theorem payouts_append_self {i : Word} {log : List Entry} {e : Entry} (h : e.settles = some i) :
    payouts i (log ++ [e]) = payouts i log ++ [e] := by
  rw [payouts, List.filter_append, List.filter_singleton]
  simp [h, payouts]

/-- A payout that the record `r` of escrow `i`, as created, allows: a release to the recipient or a
refund to the sender, of the amount deposited. -/
inductive Authorized (D : Deployment) (i : Word) (r : EscrowDB) : Entry → Prop where
  | release {msg : Msg} {receiptSeal journal : Bytes}
      (h : FinishAllowed D msg i receiptSeal journal r) :
      Authorized D i r ⟨msg, .finishEscrow i receiptSeal journal,
        .escrowFinished i r.recipient r.amount, some ⟨r.recipient, r.amount⟩⟩
  | refund {msg : Msg} (h : CancelAllowed msg r) :
      Authorized D i r ⟨msg, .cancelEscrow i, .escrowCancelled i r.sender r.amount,
        some ⟨r.sender, r.amount⟩⟩

theorem Authorized.settles {D : Deployment} {i : Word} {r : EscrowDB} {p : Entry}
    (h : Authorized D i r p) : p.settles = some i := by
  cases h <;> rfl

/-- How escrow `i`, created with record `r`, stands: `now` is its record, `past` its payouts. -/
def Lives (D : Deployment) (i : Word) (r now : EscrowDB) (past : List Entry) : Prop :=
  (now = r ∧ past = []) ∨ (now = r.settle ∧ ∃ p, past = [p] ∧ Authorized D i r p)

/-- The ids issued when `n` have been: `1`, `2`, up to `n`. -/
def issued (n : ℕ) : List Word := (List.range n).map fun k ↦ BitVec.ofNat 256 (k + 1)

theorem mem_issued {s : Storage} {i : Word} : i ∈ issued s.nextEscrowId.toNat ↔ s.Issued i := by
  have hlt := s.nextEscrowId.isLt
  rw [issued, List.mem_map, Storage.Issued]
  constructor
  · rintro ⟨k, hk, rfl⟩
    have hk' := List.mem_range.mp hk
    rw [BitVec.toNat_ofNat, Nat.mod_eq_of_lt (by omega)]
    omega
  · rintro ⟨hpos, hle⟩
    refine ⟨i.toNat - 1, List.mem_range.mpr (by omega), ?_⟩
    rw [Nat.sub_add_cancel hpos, BitVec.ofNat_toNat, BitVec.setWidth_eq]

theorem issued_succ {n : Word} (h : n.toNat + 1 < 2 ^ 256) :
    issued (n + 1).toNat = issued n.toNat ++ [n + 1] := by
  rw [toNat_succ h, issued, List.range_succ, List.map_append, issued, List.map_singleton,
    ← toNat_succ h, BitVec.ofNat_toNat, BitVec.setWidth_eq]

/-! ## The invariant -/

/-- The storage is what the log says. -/
structure Recorded (D : Deployment) (s : Storage) (log : List Entry) : Prop where
  fresh : s.Fresh
  ids : (creations log).map Prod.fst = issued s.nextEscrowId.toNat
  unpaid : ∀ i : Word, ¬s.Issued i → payouts i log = []
  created : ∀ i r, (i, r) ∈ creations log → r.settled = false ∧ r.amount ≠ 0
  lives : ∀ i r, (i, r) ∈ creations log → Lives D i r (s.escrows i) (payouts i log)

theorem Recorded.init (D : Deployment) : Recorded D .init [] where
  fresh := fun _ _ ↦ rfl
  ids := rfl
  unpaid := fun _ _ ↦ rfl
  created := fun _ _ h ↦ absurd h List.not_mem_nil
  lives := fun _ _ h ↦ absurd h List.not_mem_nil

theorem Recorded.issued_of_mem {D : Deployment} {s : Storage} {log : List Entry} {i : Word}
    {r : EscrowDB} (hs : Recorded D s log) (h : (i, r) ∈ creations log) : s.Issued i :=
  mem_issued.mp (hs.ids ▸ List.mem_map_of_mem h)

theorem Recorded.exists_creation {D : Deployment} {s : Storage} {log : List Entry} {i : Word}
    (hs : Recorded D s log) (h : s.Issued i) : ∃ r, (i, r) ∈ creations log := by
  have hmem := mem_issued.mpr h
  rw [← hs.ids] at hmem
  obtain ⟨⟨_, r⟩, hr, rfl⟩ := List.mem_map.mp hmem
  exact ⟨r, hr⟩

theorem Recorded.create {D : Deployment} {s s' : Storage} {log : List Entry} {msg : Msg}
    {recipient : Address} {finishAfter cancelAfter conditionId : Word} {e : Event}
    (hs : Recorded D s log)
    (h : createEscrow msg recipient finishAfter cancelAfter conditionId s = .ok (s', e)) :
    Recorded D s' (log ++
      [⟨msg, .createEscrow recipient finishAfter cancelAfter conditionId, e, none⟩]) := by
  have hfresh := hs.fresh.create h
  obtain ⟨-, hvalue, -, -, -, hlt, rfl, rfl⟩ := createEscrow_eq_ok.mp h
  have hnew := Storage.not_issued_succ hlt
  -- Everything in the log is about ids issued before.
  have hmem : ∀ i r, (i, r) ∈ creations log → i ≠ s.nextEscrowId + 1 := by
    rintro i r hir rfl
    exact hnew (hs.issued_of_mem hir)
  -- The entry issues the new id and settles nothing.
  obtain ⟨p, hp, hcreation, hsettles⟩ : ∃ p : Entry,
      p = ⟨msg, .createEscrow recipient finishAfter cancelAfter conditionId,
        .escrowCreated (s.nextEscrowId + 1) msg.sender recipient msg.value finishAfter cancelAfter
          conditionId, none⟩ ∧
      p.creation = some
        (s.nextEscrowId + 1, newEscrow msg recipient finishAfter cancelAfter conditionId) ∧
      p.settles = none := ⟨_, rfl, rfl, rfl⟩
  rw [← hp]
  have hcreations : creations (log ++ [p]) = creations log ++
      [(s.nextEscrowId + 1, newEscrow msg recipient finishAfter cancelAfter conditionId)] := by
    rw [creations_append, hcreation, Option.toList_some]
  have hpayouts (i : Word) : payouts i (log ++ [p]) = payouts i log := by
    refine payouts_append_of_ne ?_
    rw [hsettles]
    exact (Option.some_ne_none i).symm
  refine ⟨hfresh, ?_, ?_, ?_, ?_⟩
  · rw [hcreations, List.map_append, hs.ids]
    exact (issued_succ hlt).symm
  · intro i hi
    rw [hpayouts]
    exact hs.unpaid i fun hi' ↦ hi ((Storage.issued_issue_iff hlt).mpr (Or.inl hi'))
  · intro i r hir
    rw [hcreations] at hir
    rcases List.mem_append.mp hir with hir | hir
    · exact hs.created i r hir
    · obtain ⟨rfl, rfl⟩ := Prod.mk.inj (List.mem_singleton.mp hir)
      exact ⟨rfl, hvalue⟩
  · intro i r hir
    rw [hcreations] at hir
    rw [hpayouts]
    rcases List.mem_append.mp hir with hir | hir
    · rw [Storage.issue_escrows_of_ne (hmem i r hir)]
      exact hs.lives i r hir
    · obtain ⟨rfl, rfl⟩ := Prod.mk.inj (List.mem_singleton.mp hir)
      exact Or.inl ⟨s.issue_escrows_self _, hs.unpaid _ hnew⟩

/-- Settling an escrow that may be settled. `p` is the payout, and `hp` says that the record allows
it. -/
theorem Recorded.settle {D : Deployment} {s : Storage} {log : List Entry} {i : Word} {p : Entry}
    (hs : Recorded D s log) (hsender : (s.escrows i).sender ≠ 0)
    (hunsettled : (s.escrows i).settled = false) (hp : Authorized D i (s.escrows i) p) :
    Recorded D (s.settling i) (log ++ [p]) := by
  -- A payout issues no id and concerns one escrow only.
  have hsettles := hp.settles
  have hcreation : p.creation = none := by cases hp <;> rfl
  have hcreations : creations (log ++ [p]) = creations log := by
    rw [creations_append, hcreation, Option.toList_none, List.append_nil]
  have hother {j : Word} (h : j ≠ i) : payouts j (log ++ [p]) = payouts j log := by
    refine payouts_append_of_ne ?_
    rw [hsettles, Ne, Option.some.injEq]
    exact h.symm
  refine ⟨hs.fresh.settling hsender, ?_, ?_, ?_, ?_⟩
  · rw [hcreations]
    exact hs.ids
  · intro j hj
    have hne : j ≠ i := by
      rintro rfl
      exact hj (hs.fresh.issued hsender)
    rw [hother hne]
    exact hs.unpaid j hj
  · rw [hcreations]
    exact hs.created
  · intro j r hjr
    rw [hcreations] at hjr
    have hlives := hs.lives j r hjr
    by_cases hji : j = i
    · subst hji
      rw [payouts_append_self hsettles, Storage.settling_escrows_self]
      rcases hlives with ⟨hnow, hpast⟩ | ⟨hnow, -⟩
      · rw [hnow] at hp
        rw [hnow, hpast]
        exact Or.inr ⟨rfl, p, rfl, hp⟩
      · -- A second payout would need a record that is not settled.
        rw [hnow] at hunsettled
        exact nomatch hunsettled
    · rw [hother hji, Storage.settling_escrows_of_ne hji]
      exact hlives

theorem Recorded.step {D : Deployment} {w w' : World} (h : WorldStep D w w')
    (hw : Recorded D w.storage w.log) : Recorded D w'.storage w'.log := by
  cases h with
  | create h => exact hw.create h
  | finish h hpay =>
    obtain ⟨-, -, hallowed, rfl, rfl, rfl⟩ := beginFinish_eq_ok.mp h
    exact hw.settle hallowed.exists_ hallowed.unsettled (.release hallowed)
  | cancel h hpay =>
    obtain ⟨-, -, hallowed, rfl, rfl, rfl⟩ := beginCancel_eq_ok.mp h
    exact hw.settle hallowed.exists_ hallowed.unsettled (.refund hallowed)
  | unlock => exact ⟨hw.fresh, hw.ids, hw.unpaid, hw.created, hw.lives⟩
  | force value => exact hw

/-- In every world a run reaches the storage is what the log says. -/
theorem Machine.recorded (D : Deployment) (forced block : ℕ) (actions : List Action) :
    Recorded D ((init forced block).run D actions).world.storage
      ((init forced block).run D actions).world.log :=
  world_induction (I := fun w ↦ Recorded D w.storage w.log) (Recorded.init D)
    (fun _ _ ↦ Recorded.step) block actions

theorem Recorded.release_allowed {D : Deployment} {s : Storage} {log : List Entry} {i : Word}
    {receiptSeal journal : Bytes} {p : Entry} (hs : Recorded D s log) (hp : p ∈ log)
    (hcall : p.call = .finishEscrow i receiptSeal journal) :
    ∃ r, (i, r) ∈ creations log ∧ s.escrows i = r.settle ∧
      FinishAllowed D p.msg i receiptSeal journal r := by
  have hpay : p ∈ payouts i log := by
    refine List.mem_filter.mpr ⟨hp, decide_eq_true ?_⟩
    rw [Entry.settles, hcall]
  have hissued : s.Issued i := by
    by_contra hi
    rw [hs.unpaid i hi] at hpay
    exact absurd hpay List.not_mem_nil
  obtain ⟨r, hr⟩ := hs.exists_creation hissued
  rcases hs.lives i r hr with ⟨-, hpast⟩ | ⟨hnow, q, hpast, hauth⟩
  · rw [hpast] at hpay
    exact absurd hpay List.not_mem_nil
  · -- The one payout of the escrow is the release.
    rw [hpast, List.mem_singleton] at hpay
    subst hpay
    refine ⟨r, hr, hnow, ?_⟩
    cases hauth with
    | release h =>
      cases hcall
      exact h
    | refund h => cases hcall

/-! ## What creation checks -/

/-- The record of a new escrow: what `createEscrow` requires of its arguments. -/
structure EscrowDB.Validated (r : EscrowDB) : Prop where
  recipient : r.recipient ≠ 0
  amount : r.amount ≠ 0
  settled : r.settled = false
  locked : ¬(r.finishAfter = 0 ∧ r.cancelAfter = 0)
  deadline : r.conditionId ≠ 0 → r.cancelAfter ≠ 0
  ordered : r.finishAfter ≠ 0 → r.cancelAfter ≠ 0 → r.finishAfter.toNat < r.cancelAfter.toNat

theorem newEscrow_validated {msg : Msg} {recipient : Address}
    {finishAfter cancelAfter conditionId : Word} {s s' : Storage} {e : Event}
    (h : createEscrow msg recipient finishAfter cancelAfter conditionId s = .ok (s', e)) :
    (newEscrow msg recipient finishAfter cancelAfter conditionId).Validated := by
  obtain ⟨hrecipient, hvalue, hlocked, hdeadline, hordered, -⟩ := createEscrow_eq_ok.mp h
  refine ⟨hrecipient, hvalue, rfl, hlocked, fun hcond hcancel ↦ hdeadline ⟨hcond, hcancel⟩, ?_⟩
  intro hfinish hcancel
  exact Nat.lt_of_not_le fun hle ↦ hordered ⟨hfinish, hcancel, hle⟩

theorem Entry.call_of_creation {e : Entry} {i : Word} {r : EscrowDB}
    (h : e.creation = some (i, r)) : ∃ recipient finishAfter cancelAfter conditionId,
      e.call = .createEscrow recipient finishAfter cancelAfter conditionId ∧
        r = newEscrow e.msg recipient finishAfter cancelAfter conditionId := by
  rw [creation] at h
  split at h
  · next hcall _ =>
    obtain ⟨-, rfl⟩ := Prod.mk.inj (Option.some.inj h)
    exact ⟨_, _, _, _, hcall, rfl⟩
  · exact absurd h.symm (Option.some_ne_none _)

theorem validated_step {D : Deployment} {w w' : World} (h : WorldStep D w w')
    (hw : ∀ i r, (i, r) ∈ creations w.log → r.Validated) :
    ∀ i r, (i, r) ∈ creations w'.log → r.Validated := by
  intro i r hr
  cases h with
  | create h =>
    rw [World.afterCreate, creations_append] at hr
    rcases List.mem_append.mp hr with hr | hr
    · exact hw i r hr
    · obtain ⟨-, -, -, -, -, -, -, rfl⟩ := createEscrow_eq_ok.mp h
      obtain ⟨-, rfl⟩ := Prod.mk.inj (List.mem_singleton.mp hr)
      exact newEscrow_validated h
  -- A payout creates nothing.
  | finish | cancel =>
    rw [World.afterTransfer, creations_append] at hr
    exact hw i r ((List.mem_append.mp hr).resolve_right List.not_mem_nil)
  | unlock | force => exact hw i r hr

/-- Every escrow that was created passed the checks. -/
theorem Machine.validated (D : Deployment) (forced block : ℕ) (actions : List Action) :
    ∀ i r, (i, r) ∈ creations ((init forced block).run D actions).world.log → r.Validated :=
  world_induction (I := fun w ↦ ∀ i r, (i, r) ∈ creations w.log → r.Validated)
    (fun _ _ h ↦ absurd h List.not_mem_nil) (fun _ _ ↦ validated_step) block actions

/-! ## Permanence -/

theorem WorldStep.log_grows {D : Deployment} {w w' : World} (h : WorldStep D w w') :
    w.log <+: w'.log := by
  cases h with
  | create | finish | cancel => exact List.prefix_append _ _
  | unlock | force => exact List.prefix_rfl

/-- Outside all calls, nothing in the log is ever undone. -/
theorem Machine.log_grows {D : Deployment} {m : Machine} (hm : m.Idle) (actions : List Action) :
    m.world.log <+: (m.run D actions).world.log := by
  have hstart : m.worlds = .start m.world := by
    rw [Checkpointed.start, ← hm]
    rfl
  have hmoves := m.run_moves D actions
  rw [hstart] at hmoves
  exact Checkpointed.related_of_moves (R := fun w w' : World ↦ w.log <+: w'.log)
    (fun _ ↦ List.prefix_rfl) (fun _ _ _ ↦ List.IsPrefix.trans) (fun _ _ ↦ WorldStep.log_grows)
    hmoves

/-- The terms of an escrow: all of its record but what a settlement changes. -/
def SameTerms (a b : EscrowDB) : Prop :=
  a.sender = b.sender ∧ a.recipient = b.recipient ∧ a.finishAfter = b.finishAfter ∧
    a.cancelAfter = b.cancelAfter ∧ a.conditionId = b.conditionId

theorem Lives.sameTerms {D : Deployment} {i : Word} {r now : EscrowDB} {past : List Entry}
    (h : Lives D i r now past) : SameTerms now r := by
  rcases h with ⟨rfl, -⟩ | ⟨rfl, -⟩ <;> exact ⟨rfl, rfl, rfl, rfl, rfl⟩

theorem Lives.settled_iff {D : Deployment} {i : Word} {r now : EscrowDB} {past : List Entry}
    (h : Lives D i r now past) (hr : r.settled = false) (hamount : r.amount ≠ 0) :
    now.settled = true ↔ now.amount = 0 := by
  rcases h with ⟨rfl, -⟩ | ⟨rfl, -⟩
  · rw [hr]
    exact iff_of_false Bool.false_ne_true hamount
  · exact iff_of_true rfl rfl

theorem Lives.paid_once {D : Deployment} {i : Word} {r now : EscrowDB} {past : List Entry}
    (h : Lives D i r now past) : past.length ≤ 1 ∧ ∀ p ∈ past, Authorized D i r p := by
  rcases h with ⟨-, rfl⟩ | ⟨-, p, rfl, hp⟩
  · exact ⟨Nat.zero_le 1, fun p hp ↦ absurd hp List.not_mem_nil⟩
  · refine ⟨le_rfl, fun q hq ↦ ?_⟩
    rw [List.mem_singleton.mp hq]
    exact hp

/-- Terms agreed outside all calls are the terms ever after. -/
theorem Machine.terms_permanent (D : Deployment) (forced block : ℕ) (actions later : List Action)
    (hidle : ((init forced block).run D actions).Idle) (i : Word)
    (hi : ((init forced block).run D actions).world.storage.Issued i) :
    SameTerms (((init forced block).run D (actions ++ later)).world.storage.escrows i)
      (((init forced block).run D actions).world.storage.escrows i) := by
  have hrun := recorded D forced block actions
  have hlater := recorded D forced block (actions ++ later)
  have hpre := log_grows (D := D) hidle later
  rw [Machine.run, run_append] at hlater ⊢
  obtain ⟨r, hr⟩ := hrun.exists_creation hi
  -- The creation is still in the log, and both records have its terms.
  have hr' := (hpre.filterMap Entry.creation).subset hr
  obtain ⟨h₁, h₂, h₃, h₄, h₅⟩ := (hrun.lives i r hr).sameTerms
  obtain ⟨h₁', h₂', h₃', h₄', h₅'⟩ := (hlater.lives i r hr').sameTerms
  exact ⟨h₁'.trans h₁.symm, h₂'.trans h₂.symm, h₃'.trans h₃.symm, h₄'.trans h₄.symm,
    h₅'.trans h₅.symm⟩

/-- **The life of an escrow.** After any run: ids have been issued from one on, each once; the
record of each has the terms it was created with, and is settled exactly when its amount is zero; at
most one payout was made for it, and that one was allowed by the record as created. Outside all
calls nothing of this can be undone by what comes later. -/
theorem Machine.lifecycle (D : Deployment) (forced block : ℕ) (actions : List Action) :
    let m := (init forced block).run D actions
    (creations m.world.log).map Prod.fst = issued m.world.storage.nextEscrowId.toNat ∧
    (∀ i r, (i, r) ∈ creations m.world.log →
      SameTerms (m.world.storage.escrows i) r ∧
      ((m.world.storage.escrows i).settled = true ↔ (m.world.storage.escrows i).amount = 0) ∧
      (payouts i m.world.log).length ≤ 1 ∧ ∀ p ∈ payouts i m.world.log, Authorized D i r p) ∧
    (m.Idle → ∀ later,
      m.world.log <+: (m.run D later).world.log ∧
      ∀ i, m.world.storage.Issued i →
        SameTerms ((m.run D later).world.storage.escrows i) (m.world.storage.escrows i)) := by
  intro m
  have hm := recorded D forced block actions
  refine ⟨hm.ids, fun i r hir ↦ ?_, fun hidle later ↦ ⟨log_grows hidle later, fun i hi ↦ ?_⟩⟩
  · have hlives := hm.lives i r hir
    obtain ⟨hunsettled, hamount⟩ := hm.created i r hir
    exact ⟨hlives.sameTerms, hlives.settled_iff hunsettled hamount, hlives.paid_once⟩
  · have h := terms_permanent D forced block actions later hidle i hi
    rw [Machine.run, run_append] at h
    exact h

end Zescrow.Ethereum
