import Zescrow.Foundation.Deposit
import Zescrow.Solana.Exit
import Zescrow.Solana.Journal
import Zescrow.Solana.Window

/-!
# The program as a protocol of deposits

Under the number of its creation an escrow account is a deposit of the abstract protocol: what a run
has done is a history under the rules of the program, which say who must sign and what proof a
release takes. An address can be used again and its number cannot, so it is the number that stands
for the deposit.

In a world a run has reached a settlement can happen next exactly if the protocol allows it: no
account is out of reach, and none is short of lamports. The runtime has a say as well, but only in
whether a recipient is left exempt from rent.
-/

open Foundation Foundation.Deposits

namespace Zescrow.Solana

/-- What a release has to prove: the id and the condition of an account. -/
abbrev Claim := UInt64 × FixedBytes 32

/-- The terms of an escrow account. -/
def EscrowAccount.deal (e : EscrowAccount) : Deal Pubkey Claim where
  depositor := e.sender
  beneficiary := e.recipient
  amount := e.amount.toNat
  lock := e.timeLock
  condition := if e.condition = noCondition then none else some (e.id, e.condition)

def SettlementKind.fate : SettlementKind → Fate
  | .released _ => .released
  | .refunded => .returned

/-- Who signs for an instruction. -/
def Action.caller : Action → Option Pubkey
  | .create sender .. => some sender
  | .finish recipient .. => some recipient
  | .cancel sender _ => some sender
  | .transfer .. | .advance _ => none

/-- What an action does: what it creates, and what it settles. -/
def happening (R : Runtime) (w : World) (action : Action) : List (Event ℕ Pubkey Claim) :=
  match action.caller with
  | none => []
  | some caller =>
    ((w.step R action).created.drop w.created.length).map (fun e ↦
        .deposit w.slot w.created.length caller e.deal) ++
      ((w.step R action).settlements.drop w.settlements.length).map fun s ↦
        .settle w.slot s.serial caller s.kind.fate

/-- What a run does. -/
def history (R : Runtime) : World → List Action → List (Event ℕ Pubkey Claim)
  | _, [] => []
  | w, action :: actions => happening R w action ++ history R (w.step R action) actions

/-- A proof that releases an account with these terms. -/
def Proven (R : Runtime) (d : Deal Pubkey Claim) : Prop :=
  ∃ e : EscrowAccount, e.deal = d ∧ ∃ moment remaining receiptSeal,
    routerVerify R.sha256 (R.router moment remaining)
      (releaseProofData R.sha256 R.imageId e receiptSeal) ≠ none

/-- The rules of the program: numbers are consecutive, the depositor signs and is not the
beneficiary, whoever is paid has signed, and a conditioned deposit is released with a proof. -/
def programRules (R : Runtime) : Rules ℕ Pubkey Claim where
  admits status k d := (∀ j, status j ≠ .vacant ↔ j < k) ∧ R.canSign d.depositor = true ∧
    d.beneficiary ≠ d.depositor
  settles _ d fate := R.canSign (d.payee fate) = true ∧
    (fate = .released → d.condition ≠ none → Proven R d)

theorem EscrowAccount.deal_condition_ne_none {e : EscrowAccount} :
    e.deal.condition ≠ none ↔ e.condition ≠ noCondition := by
  rw [deal, Ne, ite_eq_left_iff]
  simp

theorem releaseProofData_congr {e e' : EscrowAccount} (h : e.deal = e'.deal)
    (hcond : e.condition ≠ noCondition) (sha256 : Bytes → FixedBytes 32) (imageId : FixedBytes 32)
    (receiptSeal : Bytes) :
    releaseProofData sha256 imageId e receiptSeal
      = releaseProofData sha256 imageId e' receiptSeal := by
  have hcond' : e'.condition ≠ noCondition :=
    EscrowAccount.deal_condition_ne_none.mp (h ▸ EscrowAccount.deal_condition_ne_none.mpr hcond)
  have hclaim : e.deal.condition = e'.deal.condition := congrArg Deal.condition h
  rw [EscrowAccount.deal, if_neg hcond, EscrowAccount.deal, if_neg hcond'] at hclaim
  obtain ⟨hid, hcondition⟩ := Prod.mk.inj (Option.some.inj hclaim)
  have hsender : e.sender = e'.sender := congrArg Deal.depositor h
  have hrecipient : e.recipient = e'.recipient := congrArg Deal.beneficiary h
  have hamount : e.amount = e'.amount := UInt64.toNat_inj.mp (congrArg Deal.amount h)
  have hjournal : reconstructJournal e = reconstructJournal e' := by
    rw [reconstructJournal_inj, EscrowAccount.terms, EscrowAccount.terms, hsender, hrecipient, hid,
      hamount, hcondition]
  rw [releaseProofData, releaseProofData, hjournal]

/-! ## What a step does -/

/-- What an action does to a world. -/
inductive Outcome (R : Runtime) (w : World) (action : Action) : World → Prop where
  /-- No escrow account is touched. -/
  | quiet {w' : World} (slot : w.slot ≤ w'.slot) (created : w'.created = w.created)
      (settlements : w'.settlements = w.settlements) (serial : w'.serial = w.serial)
      (data : ∀ a, (w'.accounts a).data = (w.accounts a).data) : Outcome R w action w'
  | creation {sender recipient a : Pubkey} {args : CreateEscrowArgs} {accounts : Accounts}
      {ev : EscrowEvent} (caller : action.caller = some sender)
      (h : createEscrow R sender recipient a args w.accounts = .ok (accounts, ev)) :
      Outcome R w action (w.afterCreate accounts a (newEscrow R sender recipient args))
  | release {moment : ℕ} {recipient sender a verifierRouter : Pubkey}
      {remaining : List AccountMeta} {receiptSeal : Bytes} {accounts : Accounts} {ev : EscrowEvent}
      {e : EscrowAccount} (caller : action.caller = some recipient)
      (h : finishEscrow R w.slot moment recipient sender a verifierRouter remaining receiptSeal
        w.accounts = .ok (accounts, ev)) (hdata : (w.accounts a).data = some e) :
      Outcome R w action (w.afterSettle accounts a e (.released receiptSeal))
  | refund {sender a : Pubkey} {accounts : Accounts} {ev : EscrowEvent} {e : EscrowAccount}
      (caller : action.caller = some sender)
      (h : cancelEscrow R w.slot sender a w.accounts = .ok (accounts, ev))
      (hdata : (w.accounts a).data = some e) :
      Outcome R w action (w.afterSettle accounts a e .refunded)

theorem outcome_self (R : Runtime) (w : World) (action : Action) : Outcome R w action w :=
  .quiet le_rfl rfl rfl rfl fun _ ↦ rfl

theorem step_outcome (R : Runtime) (w : World) (action : Action) :
    Outcome R w action (w.step R action) := by
  cases action with
  | create sender recipient a args =>
    rw [World.step]
    split
    · exact outcome_self R w _
    · next h => exact .creation rfl h
  | finish recipient sender a verifierRouter remaining receiptSeal moment =>
    rw [World.step]
    cases h : finishEscrow R w.slot moment recipient sender a verifierRouter remaining receiptSeal
        w.accounts with
    | error err =>
      rw [settle_error]
      exact outcome_self R w _
    | ok r =>
      obtain ⟨e, hdata, -⟩ := finishEscrow_eq_ok.mp h
      rw [settle_eq_ok hdata]
      exact .release rfl h hdata
  | cancel sender a =>
    rw [World.step]
    cases h : cancelEscrow R w.slot sender a w.accounts with
    | error err =>
      rw [settle_error]
      exact outcome_self R w _
    | ok r =>
      obtain ⟨e, hdata, -⟩ := cancelEscrow_eq_ok.mp h
      rw [settle_eq_ok hdata]
      exact .refund rfl h hdata
  | transfer source destination lamports =>
    rw [World.step]
    split
    · exact outcome_self R w _
    · next accounts h => exact .quiet le_rfl rfl rfl rfl fun a ↦ systemTransfer_data h a
  | advance slots => exact .quiet (Nat.le_add_right _ _) rfl rfl rfl fun _ ↦ rfl

theorem happening_eq {R : Runtime} {w : World} {action : Action} {caller : Pubkey}
    {created : List EscrowAccount} {settlements : List Settlement}
    (hcaller : action.caller = some caller)
    (hcreated : (w.step R action).created = w.created ++ created)
    (hsettlements : (w.step R action).settlements = w.settlements ++ settlements) :
    happening R w action =
      created.map (fun e ↦ .deposit w.slot w.created.length caller e.deal) ++
        settlements.map fun s ↦ .settle w.slot s.serial caller s.kind.fate := by
  rw [happening, hcaller, hcreated, hsettlements, List.drop_left, List.drop_left]

theorem happening_quiet {R : Runtime} {w : World} {action : Action}
    (hcreated : (w.step R action).created = w.created)
    (hsettlements : (w.step R action).settlements = w.settlements) : happening R w action = [] := by
  cases hcaller : action.caller with
  | none => rw [happening, hcaller]
  | some caller =>
    exact happening_eq hcaller (show _ = w.created ++ [] by rw [hcreated, List.append_nil])
      (show _ = w.settlements ++ [] by rw [hsettlements, List.append_nil])

theorem happening_create {R : Runtime} {w : World} {action : Action} {accounts : Accounts}
    {caller a : Pubkey} {e : EscrowAccount} (hcaller : action.caller = some caller)
    (h : w.step R action = w.afterCreate accounts a e) :
    happening R w action = [.deposit w.slot w.created.length caller e.deal] := happening_eq hcaller
  (show _ = w.created ++ [e] by rw [h]; rfl)
  (show _ = w.settlements ++ [] by rw [h, List.append_nil]; rfl)

theorem happening_settle {R : Runtime} {w : World} {action : Action} {accounts : Accounts}
    {caller a : Pubkey} {e : EscrowAccount} {kind : SettlementKind}
    (hcaller : action.caller = some caller)
    (h : w.step R action = w.afterSettle accounts a e kind) :
    happening R w action = [.settle w.slot (w.serial a) caller kind.fate] := happening_eq hcaller
  (show _ = w.created ++ [] by rw [h, List.append_nil]; rfl)
  (show _ = w.settlements ++ [⟨w.serial a, e, kind⟩] by rw [h]; rfl)

/-! ## Every run is a history -/

/-- The deposits are the escrow accounts of the world. -/
structure Matches (w : World) (st : State ℕ Pubkey Claim) : Prop where
  clock : st.clock ≤ w.slot
  ids : ∀ k, st.status k ≠ .vacant ↔ k < w.created.length
  held : ∀ k d, st.status k = .held d ↔
    ∃ a e, (w.accounts a).data = some e ∧ w.serial a = k ∧ e.deal = d

theorem Matches.init (lamports : Pubkey → ℕ) (slot : ℕ) :
    Matches (.init lamports slot) (.init slot) where
  clock := le_rfl
  ids := fun k ↦ iff_of_false (fun h ↦ h rfl) (Nat.not_lt_zero k)
  held := fun _ _ ↦ iff_of_false nofun fun ⟨_, _, h, _⟩ ↦ absurd h.symm (Option.some_ne_none _)

section

variable {R : Runtime} {w : World} {st : State ℕ Pubkey Claim}

theorem Matches.create (h : Matches w st) (hw : Tracked w) {sender recipient a : Pubkey}
    {args : CreateEscrowArgs} {accounts : Accounts} {ev : EscrowEvent}
    (hcreate : createEscrow R sender recipient a args w.accounts = .ok (accounts, ev)) :
    let e := newEscrow R sender recipient args
    (programRules R).Allows st (.deposit w.slot w.created.length sender e.deal) ∧
      Matches (w.afterCreate accounts a e)
        (st.step (.deposit w.slot w.created.length sender e.deal)) := by
  intro e
  obtain ⟨hnone, hself, hother⟩ := createEscrow_data hcreate
  obtain ⟨hsign, -, hne, hargs, -⟩ := createEscrow_eq_ok.mp hcreate
  obtain ⟨hadmissible, hamount⟩ := (validateArgs_iff_admissible R sender recipient args).mp hargs
  have hvacant : st.status w.created.length = .vacant := by
    by_contra hne
    exact absurd ((h.ids _).mp hne) (Nat.lt_irrefl _)
  have hserial : (w.afterCreate accounts a e).serial a = w.created.length :=
    Function.update_self ..
  have hserial_ne {b : Pubkey} (hb : b ≠ a) :
      (w.afterCreate accounts a e).serial b = w.serial b := Function.update_of_ne hb ..
  refine ⟨⟨h.clock, hvacant, rfl, UInt64.lt_iff_toNat_lt.mp hamount, ?_, h.ids, hsign, hne⟩,
    le_rfl, fun k ↦ ?_, fun k d ↦ ?_⟩
  · rw [EscrowAccount.deal_condition_ne_none]
    exact hadmissible
  · have hlength : (w.afterCreate accounts a e).created.length = w.created.length + 1 :=
      List.length_append
    rw [hlength, Nat.lt_succ_iff_lt_or_eq]
    by_cases hk : k = w.created.length
    · subst hk
      rw [State.step_deposit_self]
      exact iff_of_true nofun (.inr rfl)
    · rw [State.step_deposit_of_ne hk, or_iff_left hk]
      exact h.ids k
  · by_cases hk : k = w.created.length
    · subst hk
      rw [State.step_deposit_self, Status.held.injEq]
      constructor
      · rintro rfl
        exact ⟨a, e, hself, hserial, rfl⟩
      · rintro ⟨b, e', hb, hbserial, rfl⟩
        -- Only the new account has the new number.
        by_cases hba : b = a
        · subst hba
          obtain rfl := Option.some.inj (hself.symm.trans hb)
          rfl
        · rw [hserial_ne hba] at hbserial
          have hlt := hw.serial_lt ((hother b hba).symm.trans hb)
          exact absurd hbserial hlt.ne
    · rw [State.step_deposit_of_ne hk, h.held]
      constructor
      · rintro ⟨b, e', hb, hbserial, hd⟩
        have hba : b ≠ a := by
          rintro rfl
          rw [hnone] at hb
          exact absurd hb.symm (Option.some_ne_none _)
        exact ⟨b, e', (hother b hba).trans hb, (hserial_ne hba).trans hbserial, hd⟩
      · rintro ⟨b, e', hb, hbserial, hd⟩
        have hba : b ≠ a := by
          rintro rfl
          exact hk (hbserial.symm.trans hserial)
        exact ⟨b, e', (hother b hba).symm.trans hb, (hserial_ne hba).symm.trans hbserial, hd⟩

theorem Matches.settle (h : Matches w st) (hw : Tracked w) {a : Pubkey} {e : EscrowAccount}
    {accounts : Accounts} (kind : SettlementKind) (hdata : (w.accounts a).data = some e)
    (haccounts : (accounts a).data = none ∧
      ∀ b, b ≠ a → (accounts b).data = (w.accounts b).data)
    {caller : Pubkey} (hcaller : caller = e.deal.payee kind.fate)
    (hopen : e.deal.Open w.slot kind.fate)
    (hsettles : (programRules R).settles (w.serial a) e.deal kind.fate) :
    (programRules R).Allows st (.settle w.slot (w.serial a) caller kind.fate) ∧
      Matches (w.afterSettle accounts a e kind)
        (st.step (.settle w.slot (w.serial a) caller kind.fate)) := by
  have hheld : st.status (w.serial a) = .held e.deal := (h.held _ _).mpr ⟨a, e, hdata, rfl, rfl⟩
  obtain ⟨hself, hother⟩ := haccounts
  have hne {b : Pubkey} {e' : EscrowAccount} (hb : (accounts b).data = some e') : b ≠ a := by
    rintro rfl
    rw [hself] at hb
    exact absurd hb.symm (Option.some_ne_none _)
  refine ⟨⟨h.clock, _, hheld, hcaller, hopen, hsettles⟩, le_rfl, fun k ↦ ?_, fun k d ↦ ?_⟩
  · refine Iff.trans ?_ (h.ids k)
    by_cases hk : k = w.serial a
    · subst hk
      rw [State.step_settle_self hheld, hheld]
      exact iff_of_true nofun nofun
    · rw [State.step_settle_of_ne hk]
  · by_cases hk : k = w.serial a
    · subst hk
      rw [State.step_settle_self hheld]
      refine iff_of_false nofun ?_
      rintro ⟨b, e', hb, hserial, -⟩
      have hba := hne hb
      exact hba (hw.distinct b a e' e ((hother b hba).symm.trans hb) hdata hserial)
    · rw [State.step_settle_of_ne hk, h.held]
      constructor
      · rintro ⟨b, e', hb, hserial, hd⟩
        have hba : b ≠ a := by
          rintro rfl
          exact hk hserial.symm
        exact ⟨b, e', (hother b hba).trans hb, hserial, hd⟩
      · rintro ⟨b, e', hb, hserial, hd⟩
        exact ⟨b, e', (hother b (hne hb)).symm.trans hb, hserial, hd⟩

theorem Matches.step (h : Matches w st) (hw : Tracked w) (action : Action) :
    Along State.step (programRules R).Allows st (happening R w action) ∧
      Matches (w.step R action) (st.run (happening R w action)) := by
  have houtcome := step_outcome R w action
  generalize hw' : w.step R action = w' at houtcome
  cases houtcome with
  | quiet slot created settlements serial data =>
    rw [happening_quiet (hw' ▸ created) (hw' ▸ settlements)]
    refine ⟨trivial, h.clock.trans slot, fun k ↦ ?_, fun k d ↦ ?_⟩
    · rw [created]
      exact h.ids k
    · simp only [data, serial]
      exact h.held k d
  | creation hcaller hcreate =>
    obtain ⟨hallows, hmatches⟩ := h.create hw hcreate
    rw [happening_create hcaller hw']
    exact ⟨⟨hallows, trivial⟩, hmatches⟩
  | @release moment recipient sender a verifierRouter remaining receiptSeal accounts ev e hcaller
      hfinish hdata =>
    obtain ⟨e', hdata', hallowed, -⟩ := finishEscrow_eq_ok.mp hfinish
    obtain rfl := Option.some.inj (hdata'.symm.trans hdata)
    obtain ⟨hallows, hmatches⟩ := h.settle (R := R) hw (.released receiptSeal) hdata
      (finishEscrow_data hfinish) hallowed.caller
      (EscrowAccount.finishOpen_iff.mpr hallowed.time) (by
        have hsigned := hallowed.signed
        rw [hallowed.caller] at hsigned
        refine ⟨hsigned, fun _ hcond ↦ ⟨e', rfl, moment, remaining, receiptSeal, ?_⟩⟩
        exact hallowed.proof (EscrowAccount.deal_condition_ne_none.mp hcond))
    rw [happening_settle hcaller hw']
    exact ⟨⟨hallows, trivial⟩, hmatches⟩
  | @refund sender a accounts ev e hcaller hcancel hdata =>
    obtain ⟨e', hdata', hallowed, -⟩ := cancelEscrow_eq_ok.mp hcancel
    obtain rfl := Option.some.inj (hdata'.symm.trans hdata)
    obtain ⟨hallows, hmatches⟩ := h.settle (R := R) hw .refunded hdata
      (cancelEscrow_data hcancel) hallowed.caller
      (EscrowAccount.cancelOpen_iff.mpr hallowed.time) (by
        have hsigned := hallowed.signed
        rw [hallowed.caller] at hsigned
        exact ⟨hsigned, nofun⟩)
    rw [happening_settle hcaller hw']
    exact ⟨⟨hallows, trivial⟩, hmatches⟩

theorem Matches.run (h : Matches w st) (hw : Tracked w) (actions : List Action) :
    Along State.step (programRules R).Allows st (history R w actions) ∧
      Matches (w.run R actions) (st.run (history R w actions)) := by
  induction actions generalizing w st with
  | nil => exact ⟨trivial, h⟩
  | cons action actions ih =>
    obtain ⟨hallows, hmatches⟩ := h.step (R := R) hw action
    obtain ⟨hrest, hend⟩ := ih hmatches (hw.step action)
    rw [history, along_append, State.run, run_append]
    exact ⟨⟨hallows, hrest⟩, hend⟩

/-! ## What the protocol allows can be done -/

/-- The runtime lets a deposit be settled so: a release leaves its beneficiary exempt from rent. -/
def Payable (R : Runtime) (accounts : Accounts) (s : Status Pubkey Claim) : Fate → Prop
  | .released => ∀ d, s = .held d → R.walletReserve ≤ accounts.lamports d.beneficiary + d.amount
  | .returned => True

/-- A settlement that the protocol and the runtime allow next is one an instruction makes. -/
theorem Matches.exists_settle (h : Matches w st) (hf : Funded R w.accounts)
    (htotal : Ledger.total w.accounts.lamports < 2 ^ 64)
    (hexitable : ∀ a e, (w.accounts a).data = some e → e.Exitable R) {k : ℕ} {caller : Pubkey}
    {fate : Fate} (hallows : (programRules R).Allows st (.settle w.slot k caller fate))
    (hpayable : Payable R w.accounts (st.status k) fate) :
    ∃ action, happening R w action = [.settle w.slot k caller fate] ∧
      R.Permits w.accounts (w.step R action).accounts := by
  obtain ⟨-, d, hheld, rfl, hopen, hsign, hproof⟩ := hallows
  obtain ⟨a, e, hdata, rfl, rfl⟩ := (h.held k d).mp hheld
  have hbacked := hf a e hdata
  have hseeds := hbacked.createProgramAddress_eq (hexitable a e hdata)
  cases fate with
  | released =>
    -- A seal that releases the account, if it takes any.
    have hexists : ∃ moment remaining receiptSeal, FinishAllowed R w.slot moment e.recipient
        e.sender a verifierRouterId remaining receiptSeal e := by
      have htime := EscrowAccount.finishOpen_iff.mp hopen
      by_cases hcond : e.condition = noCondition
      · exact ⟨0, [], [], hsign, rfl, hseeds, rfl, rfl, htime, fun hne ↦ absurd hcond hne⟩
      · obtain ⟨e', he', moment, remaining, receiptSeal, hverify⟩ :=
          hproof rfl (EscrowAccount.deal_condition_ne_none.mpr hcond)
        rw [← releaseProofData_congr he'.symm hcond] at hverify
        exact ⟨moment, remaining, receiptSeal, hsign, rfl, hseeds, rfl, rfl, htime,
          fun _ ↦ hverify⟩
    obtain ⟨moment, remaining, receiptSeal, hallowed⟩ := hexists
    obtain ⟨accounts, hok⟩ := hf.exists_finish htotal hdata hallowed
    have hstep : w.step R
        (.finish e.recipient e.sender a verifierRouterId remaining receiptSeal moment)
          = w.afterSettle accounts a e (.released receiptSeal) := by
      rw [World.step, hok, settle_eq_ok hdata]
    obtain ⟨-, hpermits⟩ := hf.finish_settles hdata (hexitable a e hdata) hok
    refine ⟨_, happening_settle rfl hstep, ?_⟩
    rw [hstep]
    exact hpermits.mpr (hpayable _ hheld)
  | returned =>
    have hallowed : CancelAllowed R w.slot e.sender a e :=
      ⟨hsign, hseeds, rfl, EscrowAccount.cancelOpen_iff.mp hopen⟩
    obtain ⟨accounts, hok⟩ := hf.exists_cancel htotal hdata hallowed
    have hstep : w.step R (.cancel e.sender a) = w.afterSettle accounts a e .refunded := by
      rw [World.step, hok, settle_eq_ok hdata]
    obtain ⟨-, hpermits⟩ := hf.cancel_settles hdata hok
    refine ⟨_, happening_settle rfl hstep, ?_⟩
    rw [hstep]
    exact hpermits

theorem Matches.payable (h : Matches w st) (hf : Funded R w.accounts)
    (hexitable : ∀ a e, (w.accounts a).data = some e → e.Exitable R) {action : Action} {k : ℕ}
    {caller : Pubkey} {fate : Fate}
    (haction : happening R w action = [.settle w.slot k caller fate])
    (hpermits : R.Permits w.accounts (w.step R action).accounts) :
    Payable R w.accounts (st.status k) fate := by
  have houtcome := step_outcome R w action
  generalize hw' : w.step R action = w' at houtcome hpermits
  cases houtcome with
  | quiet slot created settlements serial data =>
    rw [happening_quiet (hw' ▸ created) (hw' ▸ settlements)] at haction
    exact absurd haction.symm (List.cons_ne_nil _ _)
  | creation hcaller hcreate =>
    rw [happening_create hcaller hw'] at haction
    exact nomatch (List.cons.inj haction).1
  | @release moment recipient sender a verifierRouter remaining receiptSeal accounts ev e hcaller
      hfinish hdata =>
    rw [happening_settle hcaller hw'] at haction
    obtain ⟨-, rfl, -, rfl⟩ := Event.settle.inj (List.cons.inj haction).1
    obtain ⟨-, hexempt⟩ := hf.finish_settles hdata (hexitable a e hdata) hfinish
    intro d hd
    have hheld : st.status (w.serial a) = .held e.deal := (h.held _ _).mpr ⟨a, e, hdata, rfl, rfl⟩
    obtain rfl := Status.held.inj (hheld.symm.trans hd)
    exact hexempt.mp hpermits
  | refund hcaller hcancel hdata =>
    rw [happening_settle hcaller hw'] at haction
    obtain ⟨-, -, -, rfl⟩ := Event.settle.inj (List.cons.inj haction).1
    exact trivial

end

/-- The address a creation gives `e`. -/
def EscrowAccount.address (R : Runtime) (e : EscrowAccount) : Pubkey :=
  (R.findProgramAddress (escrowSeeds e.sender e.recipient e.id)).1

/-- The arguments of a creation of `e`. -/
def EscrowAccount.args (e : EscrowAccount) : CreateEscrowArgs :=
  ⟨e.id, e.amount, e.finishAfter, e.cancelAfter, e.condition⟩

/-- What a creation of `e` costs its sender. -/
def EscrowAccount.cost (R : Runtime) (accounts : Accounts) (e : EscrowAccount) : ℕ :=
  R.rentReserve - accounts.lamports (e.address R) + e.amount.toNat

/-- The address of `e` is vacant, and its sender can pay and may keep what is left. -/
structure Affordable (R : Runtime) (accounts : Accounts) (e : EscrowAccount) : Prop where
  vacant : (accounts (e.address R)).data = none
  cost : e.cost R accounts ≤ accounts.lamports e.sender
  rest : R.MayKeep (accounts.lamports e.sender) (accounts.lamports e.sender - e.cost R accounts)

section

variable {R : Runtime} {accounts : Accounts} {source destination : Pubkey} {n : ℕ}

theorem systemTransfer_eq_transferred (hne : source ≠ destination)
    (hdata : (accounts source).data = none) (hle : n ≤ accounts.lamports source)
    (htotal : Ledger.total accounts.lamports < 2 ^ 64) :
    systemTransfer source destination n accounts
      = .ok (accounts.transferred source destination n) := by
  refine systemTransfer_eq_ok.mpr ⟨hdata, hle, ?_, rfl⟩
  have hother : (accounts.setLamports source ((accounts source).lamports - n) destination)
      = accounts destination := Function.update_of_ne hne.symm ..
  have hsum := Ledger.add_le_total (f := accounts.lamports) hne
  change n ≤ (accounts source).lamports at hle
  change (accounts source).lamports + (accounts destination).lamports ≤ _ at hsum
  rw [hother]
  omega

theorem createEscrow_affordable {sender recipient a : Pubkey} {args : CreateEscrowArgs}
    {accounts' : Accounts} {ev : EscrowEvent}
    (h : createEscrow R sender recipient a args accounts = .ok (accounts', ev))
    (hpermits : R.Permits accounts accounts') :
    Affordable R accounts (newEscrow R sender recipient args) := by
  have hrest := (createEscrow_permits_iff h).mp hpermits
  obtain ⟨hsign, haddress, -, -, hnone, initialized, funded, hinit, hfund, -⟩ :=
    createEscrow_eq_ok.mp h
  have hne := R.ne_of_canSign haddress hsign
  obtain ⟨-, hreserve, hmove⟩ := systemTransfer_lamports hinit
  obtain ⟨-, hamount, -⟩ := systemTransfer_lamports hfund
  rw [hmove, Ledger.move_source hne] at hamount
  subst haddress
  exact ⟨hnone, (Nat.add_le_add_left hamount _).trans_eq (Nat.add_sub_cancel' hreserve), hrest⟩

theorem Funded.exists_create (hf : Funded R accounts)
    (htotal : Ledger.total accounts.lamports < 2 ^ 64) {e : EscrowAccount}
    (hsign : R.canSign e.sender = true) (hne : e.recipient ≠ e.sender)
    (hargs : validateArgs e.args = .ok ()) (hafford : Affordable R accounts e) :
    ∃ accounts' ev, createEscrow R e.sender e.recipient (e.address R) e.args accounts
      = .ok (accounts', ev) ∧ R.Permits accounts accounts' := by
  obtain ⟨hvacant, hpay, hrest⟩ := hafford
  have hsender : e.sender ≠ e.address R := R.ne_of_canSign rfl hsign
  have hdata : (accounts e.sender).data = none := by
    by_contra hlive
    exact hf.ne_of_canSign hlive hsign rfl
  -- The reserve is paid first, and leaves the amount with the sender.
  have hinit := systemTransfer_eq_transferred hsender hdata
    ((Nat.le_add_right _ _).trans hpay) htotal
  obtain ⟨-, -, hmove⟩ := systemTransfer_lamports hinit
  have hfund := systemTransfer_eq_transferred (n := e.amount.toNat) hsender
    ((systemTransfer_data hinit e.sender).trans hdata) (by
      rw [hmove, Ledger.move_source hsender]
      exact Nat.le_sub_of_add_le' hpay) ((systemTransfer_total hinit).trans_lt htotal)
  have hok := createEscrow_eq_ok.mpr
    ⟨hsign, rfl, hne, hargs, hvacant, _, _, hinit, hfund, rfl, rfl⟩
  exact ⟨_, _, hok, (createEscrow_permits_iff hok).mpr hrest⟩

/-- A deposit can be made next exactly if the protocol allows it and the depositor can afford it. -/
theorem Matches.deposits_iff {w : World} {st : State ℕ Pubkey Claim} (h : Matches w st)
    (hw : Tracked w) (hf : Funded R w.accounts)
    (htotal : Ledger.total w.accounts.lamports < 2 ^ 64) {caller : Pubkey} {d : Deal Pubkey Claim} :
    (∃ action, happening R w action = [.deposit w.slot w.created.length caller d] ∧
        R.Permits w.accounts (w.step R action).accounts) ↔
      (programRules R).Allows st (.deposit w.slot w.created.length caller d) ∧
        ∃ e : EscrowAccount, e.deal = d ∧ Affordable R w.accounts e := by
  constructor
  · rintro ⟨action, haction, hpermits⟩
    obtain ⟨halong, -⟩ := h.step (R := R) hw action
    rw [haction] at halong
    refine ⟨halong.1, ?_⟩
    have houtcome := step_outcome R w action
    generalize hw' : w.step R action = w' at houtcome hpermits
    cases houtcome with
    | quiet slot created settlements serial data =>
      rw [happening_quiet (hw' ▸ created) (hw' ▸ settlements)] at haction
      exact absurd haction.symm (List.cons_ne_nil _ _)
    | creation hcaller hcreate =>
      rw [happening_create hcaller hw'] at haction
      obtain ⟨-, -, -, hdeal⟩ := Event.deposit.inj (List.cons.inj haction).1
      exact ⟨_, hdeal, createEscrow_affordable hcreate hpermits⟩
    | release hcaller | refund hcaller =>
      rw [happening_settle hcaller hw'] at haction
      exact nomatch (List.cons.inj haction).1
  · rintro ⟨⟨-, -, rfl, hamount, hadmissible, -, hsign, hne⟩, e, rfl, hafford⟩
    rw [EscrowAccount.deal_condition_ne_none] at hadmissible
    have hargs : validateArgs e.args = .ok () :=
      (validateArgs_iff_admissible R e.sender e.recipient e.args).mpr
        ⟨hadmissible, UInt64.lt_iff_toNat_lt.mpr hamount⟩
    obtain ⟨accounts, ev, hok, hpermits⟩ := hf.exists_create htotal hsign hne hargs hafford
    have hstep : w.step R (.create e.sender e.recipient (e.address R) e.args)
        = w.afterCreate accounts (e.address R) (newEscrow R e.sender e.recipient e.args) := by
      rw [World.step, hok]
    have hone := happening_create rfl hstep
    refine ⟨_, hone, ?_⟩
    rw [hstep]
    exact hpermits

end

/-- **The program is the protocol.** What a run does is a history of the deposit protocol under the
rules of the program. And while all lamports fit 64 bits, what the protocol allows next, with the
deposits as the run has left them, can be done: an instruction that the runtime lets pass makes a
settlement exactly if the protocol allows it and the recipient of a release is left exempt from
rent, and a deposit exactly if the protocol allows it and the depositor can afford it at a vacant
address. -/
theorem World.runs_are_histories (R : Runtime) (lamports : Pubkey → ℕ) (slot : ℕ)
    (actions : List Action) :
    let w := (init lamports slot).run R actions
    let events := history R (init lamports slot) actions
    let st := (State.init slot).run events
    (programRules R).History slot events ∧
    (Ledger.total lamports < 2 ^ 64 →
      (∀ k caller fate,
        (∃ action, happening R w action = [.settle w.slot k caller fate] ∧
          R.Permits w.accounts (w.step R action).accounts) ↔
        (programRules R).Allows st (.settle w.slot k caller fate) ∧
          Payable R w.accounts (st.status k) fate) ∧
      ∀ caller d,
        (∃ action, happening R w action = [.deposit w.slot w.created.length caller d] ∧
          R.Permits w.accounts (w.step R action).accounts) ↔
        (programRules R).Allows st (.deposit w.slot w.created.length caller d) ∧
          ∃ e : EscrowAccount, e.deal = d ∧ Affordable R w.accounts e) := by
  intro w events st
  have htracked : Tracked w := tracked R lamports slot actions
  have hconserved : Conserved R (Ledger.total lamports) w := conserved R lamports slot actions
  obtain ⟨hhistory, hmatches⟩ :=
    (Matches.init lamports slot).run (R := R) (Tracked.init lamports slot) actions
  refine ⟨hhistory, fun htotal ↦ ?_⟩
  rw [← hconserved.total] at htotal
  have hexitable : ∀ a e, (w.accounts a).data = some e → e.Exitable R :=
    fun _ _ hdata ↦ exitable R lamports slot actions hdata
  refine ⟨fun k caller fate ↦ ⟨?_, fun ⟨hallows, hpayable⟩ ↦ ?_⟩, fun caller d ↦ ?_⟩
  · rintro ⟨action, haction, hpermits⟩
    have hpayable := hmatches.payable hconserved.funded hexitable haction hpermits
    obtain ⟨halong, -⟩ := hmatches.step (R := R) htracked action
    rw [haction] at halong
    exact ⟨halong.1, hpayable⟩
  · exact hmatches.exists_settle hconserved.funded htotal hexitable hallows hpayable
  · exact hmatches.deposits_iff htracked hconserved.funded htotal

/-- At its cancellation slot the sample escrow can be returned. -/
theorem World.runs_are_histories_sample :
    let w := (init sampleLamports 0).run .sample (sampleCreation ++ [.advance 100])
    ∃ action, happening .sample w action = [.settle w.slot 0 sampleEscrow.sender .returned] ∧
      Runtime.sample.Permits w.accounts (w.step .sample action).accounts := by
  have hexact := (runs_are_histories .sample sampleLamports 0 (sampleCreation ++ [.advance 100])).2
    (by rw [total_sampleLamports]; norm_num)
  refine (hexact.1 0 sampleEscrow.sender .returned).mpr ⟨⟨by decide +kernel, sampleEscrow.deal, ?_,
    rfl, ⟨100, rfl, by decide +kernel⟩, by decide, nofun⟩, trivial⟩
  decide +kernel

end Zescrow.Solana
