import Mathlib.Data.Set.Finite.List
import Zescrow.Foundation.Ledger
import Zescrow.Solana.Runs

/-!
# Lamports

A creation, a release, a refund and a transfer outside the program are all made of moves between
two balances, so the total never changes. A live escrow account sits at an address that cannot sign,
so nothing takes lamports out of it but its settlement: it holds its amount and the rent reserve,
and whoever sends more to it sends it to the sender. What a settlement pays out is therefore known,
and it fits 64 bits as long as the total does.
-/

open Foundation

namespace Zescrow.Solana

/-- The balances. -/
def Accounts.lamports (accounts : Accounts) : Pubkey → ℕ := fun a ↦ (accounts a).lamports

instance finite_uInt8 : Finite UInt8 := Finite.of_injective UInt8.toFin fun _ _ ↦ UInt8.toFin_inj.mp

instance finite_fixedBytes (n : ℕ) : Finite (FixedBytes n) :=
  (List.finite_length_eq UInt8 n).to_subtype

/-! ## Every instruction moves balances -/

theorem setLamports_lamports (accounts : Accounts) (a : Pubkey) (n : ℕ) :
    (accounts.setLamports a n).lamports = Function.update accounts.lamports a n := by
  funext b
  rw [Accounts.lamports, Accounts.setLamports]
  by_cases h : b = a
  · subst h
    rw [Function.update_self, Function.update_self]
  · rw [Function.update_of_ne h, Function.update_of_ne h]
    rfl

theorem setData_lamports (accounts : Accounts) (a : Pubkey) (data : Option EscrowAccount) :
    (accounts.setData a data).lamports = accounts.lamports := by
  funext b
  rw [Accounts.lamports, Accounts.setData]
  by_cases h : b = a
  · subst h
    rw [Function.update_self]
    rfl
  · rw [Function.update_of_ne h]
    rfl

theorem transferred_lamports (accounts : Accounts) (source destination : Pubkey) (n : ℕ) :
    (accounts.transferred source destination n).lamports
      = Ledger.move accounts.lamports source destination n := by
  have hdebit := setLamports_lamports accounts source ((accounts source).lamports - n)
  rw [Accounts.transferred, setLamports_lamports, hdebit, Ledger.move]
  congr 1
  exact congrArg (· + n) (congrFun hdebit destination)

theorem released_lamports {accounts : Accounts} {a recipient : Pubkey} (n : ℕ)
    (h : recipient ≠ a) : (accounts.released a recipient n).lamports
      = Ledger.move accounts.lamports a recipient n := by
  rw [Accounts.released, setLamports_lamports, setLamports_lamports, Ledger.move,
    Function.update_of_ne h]
  rfl

theorem closed_lamports {accounts : Accounts} {a destination : Pubkey} (h : destination ≠ a) :
    (accounts.closed a destination).lamports
      = Ledger.move accounts.lamports a destination (accounts.lamports a) := by
  rw [Accounts.closed, setData_lamports, setLamports_lamports, setLamports_lamports, Ledger.move,
    Function.update_of_ne h, Nat.sub_self, Function.update_comm h]
  rfl

theorem systemTransfer_lamports {source destination : Pubkey} {n : ℕ}
    {accounts accounts' : Accounts}
    (h : systemTransfer source destination n accounts = .ok accounts') :
    (accounts source).data = none ∧ n ≤ accounts.lamports source ∧
      accounts'.lamports = Ledger.move accounts.lamports source destination n := by
  obtain ⟨hdata, hle, -, rfl⟩ := systemTransfer_eq_ok.mp h
  exact ⟨hdata, hle, transferred_lamports ..⟩

theorem systemTransfer_total {source destination : Pubkey} {n : ℕ} {accounts accounts' : Accounts}
    (h : systemTransfer source destination n accounts = .ok accounts') :
    Ledger.total accounts'.lamports = Ledger.total accounts.lamports := by
  obtain ⟨-, hle, heq⟩ := systemTransfer_lamports h
  rw [heq, Ledger.total_move hle]

/-! ## What a live account holds -/

/-- The account at `a` is the escrow account `e` of its seeds, and holds `lamports`. -/
structure Backed (R : Runtime) (a : Pubkey) (e : EscrowAccount) (lamports : ℕ) : Prop where
  address : a = (R.findProgramAddress (escrowSeeds e.sender e.recipient e.id)).1
  sender : R.canSign e.sender = true
  parties : e.recipient ≠ e.sender
  reserve : e.amount.toNat + R.rentReserve ≤ lamports

/-- Every live account is backed. -/
def Funded (R : Runtime) (accounts : Accounts) : Prop :=
  ∀ a e, (accounts a).data = some e → Backed R a e (accounts.lamports a)

/-- Nobody can sign for an address derived for the program. -/
theorem Runtime.ne_of_canSign {R : Runtime} {a b : Pubkey} {seeds : List Bytes}
    (ha : a = (R.findProgramAddress seeds).1) (hb : R.canSign b = true) : b ≠ a := by
  rintro rfl
  rw [ha, R.not_canSign_find] at hb
  exact Bool.false_ne_true hb

theorem Backed.ne_of_canSign {R : Runtime} {a b : Pubkey} {e : EscrowAccount} {lamports : ℕ}
    (h : Backed R a e lamports) (hb : R.canSign b = true) : b ≠ a := R.ne_of_canSign h.address hb

theorem Funded.ne_of_canSign {R : Runtime} {accounts : Accounts} (hf : Funded R accounts)
    {a b : Pubkey} (ha : (accounts a).data ≠ none) (hb : R.canSign b = true) : b ≠ a := by
  obtain ⟨e, he⟩ := Option.ne_none_iff_exists'.mp ha
  exact (hf a e he).ne_of_canSign hb

/-- A creation funds the new account with the rent reserve and the amount, at the expense of its
sender. -/
theorem Funded.create {R : Runtime} {sender recipient a : Pubkey} {args : CreateEscrowArgs}
    {accounts accounts' : Accounts} {ev : EscrowEvent} (hf : Funded R accounts)
    (h : createEscrow R sender recipient a args accounts = .ok (accounts', ev)) :
    Funded R accounts' ∧ Ledger.total accounts'.lamports = Ledger.total accounts.lamports := by
  obtain ⟨-, hself, hother⟩ := createEscrow_data h
  obtain ⟨hsign, haddress, hne, -, -, initialized, funded, hinit, hfund, rfl, -⟩ :=
    createEscrow_eq_ok.mp h
  have hsender : sender ≠ a := R.ne_of_canSign haddress hsign
  obtain ⟨-, -, hinit'⟩ := systemTransfer_lamports hinit
  obtain ⟨-, -, hfund'⟩ := systemTransfer_lamports hfund
  refine ⟨fun b e hb ↦ ?_, ?_⟩
  · by_cases hba : b = a
    · subst hba
      obtain rfl := Option.some.inj (hself.symm.trans hb)
      refine ⟨haddress, hsign, hne, ?_⟩
      rw [setData_lamports, hfund', Ledger.move_destination hsender, hinit',
        Ledger.move_destination hsender]
      change args.amount.toNat + R.rentReserve ≤
        (accounts b).lamports + (R.rentReserve - (accounts b).lamports) + args.amount.toNat
      omega
    · have hold := hf b e ((hother b hba).symm.trans hb)
      have hbs : b ≠ sender := (hold.ne_of_canSign hsign).symm
      rw [setData_lamports, hfund', Ledger.move_other hbs hba, hinit', Ledger.move_other hbs hba]
      exact hold
  · rw [setData_lamports, systemTransfer_total hfund, systemTransfer_total hinit]

/-! ## What a settlement pays -/

/-- A settlement of the account `a`: it is closed, every other account is credited what `paid` says,
no other escrow account is touched, and the total stays the same. -/
structure Settles (accounts accounts' : Accounts) (a : Pubkey) (paid : Pubkey → ℕ) : Prop where
  closed : accounts' a = ⟨0, none⟩
  credited : ∀ b, b ≠ a → accounts' b = ⟨(accounts b).lamports + paid b, (accounts b).data⟩
  untouched : ∀ b, b ≠ a → (accounts b).data ≠ none → accounts' b = accounts b
  total : Ledger.total accounts'.lamports = Ledger.total accounts.lamports

/-- A release pays the amount to the recipient and everything else to the sender. -/
def releasePayout (e : EscrowAccount) (lamports : ℕ) (b : Pubkey) : ℕ :=
  if b = e.recipient then e.amount.toNat
  else if b = e.sender then lamports - e.amount.toNat else 0

/-- A refund pays everything to the sender. -/
def refundPayout (e : EscrowAccount) (lamports : ℕ) (b : Pubkey) : ℕ :=
  if b = e.sender then lamports else 0

theorem Account.ext' {x y : Account} (hl : x.lamports = y.lamports) (hd : x.data = y.data) :
    x = y := by
  obtain ⟨l, d⟩ := x
  obtain rfl : l = y.lamports := hl
  obtain rfl : d = y.data := hd
  rfl

/-- Only accounts that someone can sign for are credited, so no escrow account is. -/
theorem Funded.settles {R : Runtime} {accounts accounts' : Accounts} {a : Pubkey}
    {paid : Pubkey → ℕ} (hf : Funded R accounts)
    (hdata : (accounts' a).data = none ∧ ∀ b, b ≠ a → (accounts' b).data = (accounts b).data)
    (hzero : accounts'.lamports a = 0)
    (hpaid : ∀ b, b ≠ a → accounts'.lamports b = accounts.lamports b + paid b)
    (hsigners : ∀ b, paid b ≠ 0 → R.canSign b = true)
    (htotal : Ledger.total accounts'.lamports = Ledger.total accounts.lamports) :
    Settles accounts accounts' a paid where
  closed := Account.ext' hzero hdata.1
  credited := fun b hb ↦ Account.ext' (hpaid b hb) (hdata.2 b hb)
  untouched := fun b hb hlive ↦ by
    have hnone : paid b = 0 := by
      by_contra hne
      exact hf.ne_of_canSign hlive (hsigners b hne) rfl
    refine Account.ext' ?_ (hdata.2 b hb)
    have h := hpaid b hb
    rw [hnone, Nat.add_zero] at h
    exact h
  total := htotal

/-- A release leaves two moves: the amount to the recipient, the rest to the sender. -/
theorem Funded.finish {R : Runtime} {slot moment : ℕ} {recipient sender a verifierRouter : Pubkey}
    {remaining : List AccountMeta} {receiptSeal : Bytes} {accounts accounts' : Accounts}
    {ev : EscrowEvent} (hf : Funded R accounts)
    (h : finishEscrow R slot moment recipient sender a verifierRouter remaining receiptSeal accounts
      = .ok (accounts', ev)) :
    ∃ e, (accounts a).data = some e ∧
      Settles accounts accounts' a (releasePayout e (accounts.lamports a)) := by
  obtain ⟨e, hdata, hallowed, hle, -, hclose, -⟩ := finishEscrow_eq_ok.mp h
  have hbacked := hf a e hdata
  obtain rfl := hallowed.caller
  obtain rfl := hallowed.funder
  change e.amount.toNat ≤ accounts.lamports a at hle
  have hra : e.recipient ≠ a := hbacked.ne_of_canSign hallowed.signed
  have hsa : e.sender ≠ a := hbacked.ne_of_canSign hbacked.sender
  have hlamports : accounts'.lamports
      = Ledger.move (Ledger.move accounts.lamports a e.recipient e.amount.toNat) a e.sender
          (accounts.lamports a - e.amount.toNat) := by
    obtain ⟨-, rfl⟩ := closeAccount_eq_ok.mp hclose
    rw [closed_lamports hsa, released_lamports _ hra, Ledger.move_source hra.symm]
  refine ⟨e, hdata, hf.settles (finishEscrow_data h) ?_ (fun b hb ↦ ?_) (fun b hb ↦ ?_) ?_⟩
  · rw [hlamports, Ledger.move_source hsa.symm, Ledger.move_source hra.symm, Nat.sub_self]
  · rw [hlamports, releasePayout]
    split
    · next hbr =>
      subst hbr
      rw [Ledger.move_other hb hbacked.parties, Ledger.move_destination hra.symm]
    · next hbr =>
      split
      · next hbs =>
        subst hbs
        rw [Ledger.move_destination hsa.symm, Ledger.move_other hb hbr]
      · next hbs => rw [Ledger.move_other hb hbs, Ledger.move_other hb hbr, Nat.add_zero]
  · rw [releasePayout] at hb
    split at hb
    · next hbr =>
      rw [hbr]
      exact hallowed.signed
    · split at hb
      · next hbs =>
        rw [hbs]
        exact hbacked.sender
      · exact absurd rfl hb
  · have hrest := (Ledger.move_source (f := accounts.lamports) (n := e.amount.toNat) hra.symm).ge
    rw [hlamports, Ledger.total_move hrest, Ledger.total_move hle]

/-- A refund leaves one. -/
theorem Funded.cancel {R : Runtime} {slot : ℕ} {sender a : Pubkey} {accounts accounts' : Accounts}
    {ev : EscrowEvent} (hf : Funded R accounts)
    (h : cancelEscrow R slot sender a accounts = .ok (accounts', ev)) :
    ∃ e, (accounts a).data = some e ∧
      Settles accounts accounts' a (refundPayout e (accounts.lamports a)) := by
  obtain ⟨e, hdata, hallowed, hclose, -⟩ := cancelEscrow_eq_ok.mp h
  obtain rfl := hallowed.caller
  have hsa : e.sender ≠ a := (hf a e hdata).ne_of_canSign hallowed.signed
  have hlamports : accounts'.lamports
      = Ledger.move accounts.lamports a e.sender (accounts.lamports a) := by
    obtain ⟨-, rfl⟩ := closeAccount_eq_ok.mp hclose
    exact closed_lamports hsa
  refine ⟨e, hdata, hf.settles (cancelEscrow_data h) ?_ (fun b hb ↦ ?_) (fun b hb ↦ ?_) ?_⟩
  · rw [hlamports, Ledger.move_source hsa.symm, Nat.sub_self]
  · rw [hlamports, refundPayout]
    split
    · next hbs =>
      subst hbs
      exact Ledger.move_destination hsa.symm
    · next hbs => rw [Ledger.move_other hb hbs, Nat.add_zero]
  · rw [refundPayout] at hb
    split at hb
    · next hbs =>
      rw [hbs]
      exact hallowed.signed
    · exact absurd rfl hb
  · rw [hlamports, Ledger.total_move le_rfl]

theorem Funded.of_settles {R : Runtime} {accounts accounts' : Accounts} {a : Pubkey}
    {paid : Pubkey → ℕ} (hf : Funded R accounts) (h : Settles accounts accounts' a paid) :
    Funded R accounts' := by
  intro b e hb
  have hba : b ≠ a := by
    rintro rfl
    rw [h.closed] at hb
    exact absurd hb.symm (Option.some_ne_none _)
  have hdata : (accounts b).data = some e := by
    rw [h.credited b hba] at hb
    exact hb
  have hsame := h.untouched b hba (by rw [hdata]; exact Option.some_ne_none _)
  rw [Accounts.lamports, hsame]
  exact hf b e hdata

/-! ## Runs -/

/-- The invariant of a run that started with `total` lamports. -/
structure Conserved (R : Runtime) (total : ℕ) (w : World) : Prop where
  funded : Funded R w.accounts
  total : Ledger.total w.accounts.lamports = total

theorem Conserved.settle {R : Runtime} {total : ℕ} {w : World} (hw : Conserved R total w)
    {a : Pubkey} {kind : SettlementKind} {result : Except ProgramError (Accounts × EscrowEvent)}
    (h : ∀ accounts ev, result = .ok (accounts, ev) → ∃ paid, Settles w.accounts accounts a paid) :
    Conserved R total (w.settle a kind result) := by
  unfold World.settle
  split
  · next escrow accounts ev hdata =>
    obtain ⟨paid, hpaid⟩ := h accounts ev rfl
    exact ⟨hw.funded.of_settles hpaid, hpaid.total.trans hw.total⟩
  · exact hw

theorem Conserved.step {R : Runtime} {total : ℕ} {w : World} (hw : Conserved R total w)
    (action : Action) : Conserved R total (w.step R action) := by
  cases action with
  | create sender recipient escrowAccount args =>
    rw [World.step]
    split
    · exact hw
    · next accounts ev h =>
      obtain ⟨hfunded, htotal⟩ := hw.funded.create h
      exact ⟨hfunded, htotal.trans hw.total⟩
  | finish =>
    refine hw.settle fun accounts ev h ↦ ?_
    obtain ⟨e, -, hpaid⟩ := hw.funded.finish h
    exact ⟨_, hpaid⟩
  | cancel sender escrowAccount =>
    refine hw.settle fun accounts ev h ↦ ?_
    obtain ⟨e, -, hpaid⟩ := hw.funded.cancel h
    exact ⟨_, hpaid⟩
  | transfer source destination lamports =>
    rw [World.step]
    split
    · exact hw
    · next accounts h =>
      obtain ⟨hnone, hle, hmove⟩ := systemTransfer_lamports h
      refine ⟨fun b e hb ↦ ?_, (systemTransfer_total h).trans hw.total⟩
      rw [systemTransfer_data h] at hb
      have hold := hw.funded b e hb
      -- The source holds no escrow, so a live account can only gain.
      have hbs : b ≠ source := by
        rintro rfl
        rw [hnone] at hb
        exact absurd hb.symm (Option.some_ne_none _)
      refine ⟨hold.address, hold.sender, hold.parties, hold.reserve.trans ?_⟩
      rw [hmove]
      exact Ledger.le_move hbs
  | advance slots => exact ⟨hw.funded, hw.total⟩

theorem World.conserved (R : Runtime) (lamports : Pubkey → ℕ) (slot : ℕ) (actions : List Action) :
    Conserved R (Ledger.total lamports) ((init lamports slot).run R actions) := by
  refine run_induction (fun _ action hw ↦ hw.step action) ⟨fun a e h ↦ ?_, rfl⟩ actions
  exact absurd h.symm (Option.some_ne_none _)

/-! ## Arithmetic -/

theorem failsOnly_addLamports {a b : ℕ} {P : ProgramError → Prop} (h : a + b < 2 ^ 64) :
    FailsOnly P (addLamports a b) := by
  exact failsOnly_guard (fun hno ↦ absurd h hno) fun _ ↦ failsOnly_ok _

theorem failsOnly_closeAccount {P : ProgramError → Prop} {a destination : Pubkey}
    {accounts : Accounts} (h : destination ≠ a)
    (htotal : Ledger.total accounts.lamports < 2 ^ 64) :
    FailsOnly P (closeAccount a destination accounts) := by
  refine failsOnly_bind (failsOnly_addLamports ?_) fun _ _ ↦ failsOnly_ok _
  exact (Ledger.add_le_total h).trans_lt htotal

/-- Not for want of a representable balance. -/
def ProgramError.NotOverflow (e : ProgramError) : Prop := e ≠ .arithmeticOverflow

theorem failsOnly_loadEscrow (a : Pubkey) (accounts : Accounts) :
    FailsOnly ProgramError.NotOverflow (loadEscrow a accounts) := by
  rw [loadEscrow]
  split
  · exact failsOnly_error ProgramError.noConfusion
  · exact failsOnly_ok _

theorem notOverflow_guard {γ : Type} {c : Prop} [Decidable c] {e : ProgramError}
    {f : Unit → Except ProgramError γ} (he : e ≠ .arithmeticOverflow)
    (hf : c → FailsOnly ProgramError.NotOverflow (f ())) :
    FailsOnly ProgramError.NotOverflow (ensure c e >>= f) := failsOnly_guard (fun _ ↦ he) hf

/-- While all lamports fit 64 bits, a release does not fail for an overflow. -/
theorem Funded.finish_notOverflow {R : Runtime} {accounts : Accounts} (hf : Funded R accounts)
    (htotal : Ledger.total accounts.lamports < 2 ^ 64) (slot moment : ℕ)
    (recipient sender a verifierRouter : Pubkey) (remaining : List AccountMeta)
    (receiptSeal : Bytes) : FailsOnly ProgramError.NotOverflow
      (finishEscrow R slot moment recipient sender a verifierRouter remaining receiptSeal
        accounts) := by
  refine notOverflow_guard (by decide) fun hsign ↦ ?_
  refine failsOnly_bind (failsOnly_loadEscrow _ _) fun e hload ↦ ?_
  refine notOverflow_guard (by decide) fun hsender ↦ ?_
  refine notOverflow_guard (by decide) fun _ ↦ ?_
  refine notOverflow_guard (by decide) fun _ ↦ ?_
  refine notOverflow_guard (by decide) fun hrecipient ↦ ?_
  -- The account is backed, and neither party is the account itself.
  have hbacked := hf a e (loadEscrow_eq_ok.mp hload)
  have hra : recipient ≠ a := hbacked.ne_of_canSign hsign
  have hsa : sender ≠ a := by
    rw [hsender]
    exact hbacked.ne_of_canSign hbacked.sender
  have hamount : e.amount.toNat ≤ accounts.lamports a :=
    (Nat.le_add_right _ _).trans hbacked.reserve
  refine failsOnly_bind ?_ fun _ _ ↦ ?_
  · split
    · exact failsOnly_ensure fun _ ↦ ProgramError.noConfusion
    · exact failsOnly_ok _
  refine failsOnly_bind ?_ fun _ _ ↦ ?_
  · split
    · exact failsOnly_ensure fun _ ↦ ProgramError.noConfusion
    · exact failsOnly_ok _
  refine failsOnly_guard (fun hno ↦ absurd hamount hno) fun _ ↦ ?_
  refine failsOnly_bind (failsOnly_addLamports ?_) fun credited hcredited ↦ ?_
  · have hle := Ledger.add_le_total (f := accounts.lamports) hra
    exact ((Nat.add_le_add_left hamount _).trans hle).trans_lt htotal
  · obtain ⟨-, rfl⟩ := addLamports_eq_ok.mp hcredited
    refine failsOnly_bind (failsOnly_closeAccount hsa ?_) fun _ _ ↦ failsOnly_ok _
    change Ledger.total (accounts.released a recipient e.amount.toNat).lamports < 2 ^ 64
    rw [released_lamports _ hra, Ledger.total_move hamount]
    exact htotal

/-- Nor does a refund. -/
theorem Funded.cancel_notOverflow {R : Runtime} {accounts : Accounts} (hf : Funded R accounts)
    (htotal : Ledger.total accounts.lamports < 2 ^ 64) (slot : ℕ) (sender a : Pubkey) :
    FailsOnly ProgramError.NotOverflow (cancelEscrow R slot sender a accounts) := by
  refine notOverflow_guard (by decide) fun hsign ↦ ?_
  refine failsOnly_bind (failsOnly_loadEscrow _ _) fun e hload ↦ ?_
  refine notOverflow_guard (by decide) fun _ ↦ ?_
  refine notOverflow_guard (by decide) fun _ ↦ ?_
  refine failsOnly_bind ?_ fun _ _ ↦ ?_
  · split
    · exact failsOnly_error ProgramError.noConfusion
    · exact failsOnly_ok _
  refine notOverflow_guard (by decide) fun _ ↦ ?_
  have hsa : sender ≠ a := (hf a e (loadEscrow_eq_ok.mp hload)).ne_of_canSign hsign
  exact failsOnly_bind (failsOnly_closeAccount hsa htotal) fun _ _ ↦ failsOnly_ok _

/-- **Lamports are conserved, and each escrow is settled once.** In every world a run reaches: a
live account holds its amount and the rent reserve; what is settled was created, and no escrow is
settled twice; a release pays the amount to the recipient and the rest to the sender, a refund pays
everything to the sender, and neither changes the total or another escrow's account; and while all
lamports fit 64 bits, neither fails for an overflow. -/
theorem World.lamports_conserved (R : Runtime) (lamports : Pubkey → ℕ) (slot : ℕ)
    (actions : List Action) :
    let w := (init lamports slot).run R actions
    (∀ a e, (w.accounts a).data = some e →
      e.amount.toNat + R.rentReserve ≤ (w.accounts a).lamports) ∧
    (∀ s ∈ w.settlements, w.created[s.serial]? = some s.escrow) ∧ w.settled.Nodup ∧
    Ledger.total w.accounts.lamports = Ledger.total lamports ∧
    (∀ slot moment recipient sender a verifierRouter remaining receiptSeal accounts ev,
      finishEscrow R slot moment recipient sender a verifierRouter remaining receiptSeal w.accounts
        = .ok (accounts, ev) →
      ∃ e, (w.accounts a).data = some e ∧
        Settles w.accounts accounts a (releasePayout e (w.accounts a).lamports)) ∧
    (∀ slot sender a accounts ev, cancelEscrow R slot sender a w.accounts = .ok (accounts, ev) →
      ∃ e, (w.accounts a).data = some e ∧
        Settles w.accounts accounts a (refundPayout e (w.accounts a).lamports)) ∧
    (Ledger.total lamports < 2 ^ 64 →
      (∀ slot moment recipient sender a verifierRouter remaining receiptSeal,
        finishEscrow R slot moment recipient sender a verifierRouter remaining receiptSeal
          w.accounts ≠ .error .arithmeticOverflow) ∧
      ∀ slot sender a, cancelEscrow R slot sender a w.accounts ≠ .error .arithmeticOverflow) := by
  intro w
  have hw := conserved R lamports slot actions
  have htracked := tracked R lamports slot actions
  refine ⟨fun a e h ↦ (hw.funded a e h).reserve, htracked.settlement, htracked.once, hw.total,
    fun _ _ _ _ _ _ _ _ _ _ h ↦ hw.funded.finish h, fun _ _ _ _ _ h ↦ hw.funded.cancel h,
    fun htotal ↦ ?_⟩
  rw [← hw.total] at htotal
  constructor
  · intro slot moment recipient sender a verifierRouter remaining receiptSeal h
    exact hw.funded.finish_notOverflow htotal slot moment recipient sender a verifierRouter
      remaining receiptSeal _ h rfl
  · intro slot sender a h
    exact hw.funded.cancel_notOverflow htotal slot sender a _ h rfl

end Zescrow.Solana
