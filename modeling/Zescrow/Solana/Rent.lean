import Zescrow.Solana.Lamports

/-!
# Rent

The runtime does not let a transaction leave an account with some lamports but without the reserve
that exempts it from rent, unless the account was like that before and has gained nothing. So it is
not up to the program alone whether a settlement stands. A refund always does, because it contains
the reserve of the closed account. A release does exactly if it leaves the recipient exempt, and a
creation if what is left to the sender is nothing or keeps the sender exempt.

An account that is not an escrow account is taken to hold no data. One that holds other data has the
larger reserve already, and can be paid anything.
-/

open Foundation

namespace Zescrow.Solana

/-- The rent states of the runtime. -/
inductive RentState where
  | uninitialized
  | rentPaying (lamports : ℕ) (holdsData : Bool)
  | rentExempt
  deriving DecidableEq

/-- Whether a transaction may turn the first state into the second one. An account cannot stay
rent-paying if it is resized or credited. -/
def RentState.transitionAllowed : RentState → RentState → Bool
  | .rentPaying before dataBefore, .rentPaying after dataAfter =>
    dataAfter = dataBefore ∧ after ≤ before
  | _, .rentPaying .. => false
  | _, _ => true

theorem RentState.transitionAllowed_self (s : RentState) : s.transitionAllowed s = true := by
  cases s with
  | uninitialized => rfl
  | rentPaying lamports holdsData => exact decide_eq_true ⟨rfl, le_rfl⟩
  | rentExempt => rfl

namespace Runtime

variable (R : Runtime)

/-- The reserve of an account. -/
def reserve (account : Account) : ℕ :=
  if account.data.isSome then R.rentReserve else R.walletReserve

def rentState (account : Account) : RentState :=
  if account.lamports = 0 then .uninitialized
  else if R.reserve account ≤ account.lamports then .rentExempt
  else .rentPaying account.lamports account.data.isSome

/-- The runtime lets a transaction change the one account into the other. -/
def rentAllowed (before after : Account) : Bool :=
  (R.rentState before).transitionAllowed (R.rentState after)

/-- The runtime lets a transaction change the accounts like this. -/
def Permits (before after : Accounts) : Prop := ∀ a, R.rentAllowed (before a) (after a) = true

/-- A wallet that holds `held` may be left with `rest`. -/
def MayKeep (held rest : ℕ) : Prop := rest = 0 ∨ R.walletReserve ≤ rest ∨ held < R.walletReserve

variable {R}

theorem rentAllowed_self (account : Account) : R.rentAllowed account account = true :=
  RentState.transitionAllowed_self _

/-- What the rule asks of the account that is left: to be empty, or exempt, or no more than it was
when it already fell short. -/
theorem rentAllowed_iff {before after : Account} : R.rentAllowed before after = true ↔
    after.lamports = 0 ∨ R.reserve after ≤ after.lamports ∨
      before.lamports < R.reserve before ∧ before.data.isSome = after.data.isSome ∧
        after.lamports ≤ before.lamports := by
  rw [rentAllowed, rentState, rentState]
  by_cases hempty : after.lamports = 0
  · rw [if_pos hempty]
    exact iff_of_true (by split <;> [rfl; split <;> rfl]) (.inl hempty)
  by_cases hexempt : R.reserve after ≤ after.lamports
  · rw [if_neg hempty, if_pos hexempt]
    exact iff_of_true (by split <;> [rfl; split <;> rfl]) (.inr (.inl hexempt))
  rw [if_neg hempty, if_neg hexempt, or_iff_right hempty, or_iff_right hexempt]
  by_cases hbefore : before.lamports = 0
  · rw [if_pos hbefore]
    exact iff_of_false Bool.false_ne_true fun ⟨_, _, hle⟩ ↦ hempty (Nat.le_zero.mp (hbefore ▸ hle))
  by_cases hwas : R.reserve before ≤ before.lamports
  · rw [if_neg hbefore, if_pos hwas]
    exact iff_of_false Bool.false_ne_true fun ⟨hlt, _⟩ ↦ absurd hwas (Nat.not_le.mpr hlt)
  · rw [if_neg hbefore, if_neg hwas, and_iff_right (Nat.lt_of_not_le hwas),
      RentState.transitionAllowed, decide_eq_true_iff, eq_comm (a := after.data.isSome)]

theorem rentAllowed_credit_iff {n paid : ℕ} (hpaid : paid ≠ 0) :
    R.rentAllowed ⟨n, none⟩ ⟨n + paid, none⟩ = true ↔ R.walletReserve ≤ n + paid := by
  rw [rentAllowed_iff]
  change n + paid = 0 ∨ R.walletReserve ≤ n + paid ∨
    n < R.walletReserve ∧ false = false ∧ n + paid ≤ n ↔ _
  omega

theorem rentAllowed_debit_iff {n paid : ℕ} :
    R.rentAllowed ⟨n, none⟩ ⟨n - paid, none⟩ = true ↔ R.MayKeep n (n - paid) := by
  rw [rentAllowed_iff, MayKeep]
  change n - paid = 0 ∨ R.walletReserve ≤ n - paid ∨
    n < R.walletReserve ∧ false = false ∧ n - paid ≤ n ↔ _
  rw [eq_self, true_and, and_iff_left (Nat.sub_le n paid)]

end Runtime

variable {R : Runtime} {accounts accounts' : Accounts} {a : Pubkey} {e : EscrowAccount}

/-- A settlement stands exactly if everyone it pays is left exempt. -/
theorem Settles.permits_iff {paid : Pubkey → ℕ} (h : Settles accounts accounts' a paid) :
    R.Permits accounts accounts' ↔
      ∀ b, b ≠ a → paid b ≠ 0 → R.walletReserve ≤ accounts.lamports b + paid b := by
  have hcredited {b : Pubkey} (hb : b ≠ a) (hpaid : paid b ≠ 0) :
      R.rentAllowed (accounts b) (accounts' b) = true ↔
        R.walletReserve ≤ accounts.lamports b + paid b := by
    -- Nobody who is paid has an escrow account.
    have hwallet : (accounts b).data = none := by
      by_contra hlive
      have hsame := (h.credited b hb).symm.trans (h.untouched b hb hlive)
      exact hpaid (Nat.add_eq_left.mp (congrArg Account.lamports hsame))
    have hbefore : accounts b = ⟨accounts.lamports b, none⟩ := Account.ext' rfl hwallet
    rw [h.credited b hb, hwallet, hbefore]
    exact Runtime.rentAllowed_credit_iff hpaid
  constructor
  · intro hpermits b hb hpaid
    exact (hcredited hb hpaid).mp (hpermits b)
  · intro hexempt b
    by_cases hb : b = a
    · rw [hb, h.closed]
      exact Runtime.rentAllowed_iff.mpr (.inl rfl)
    · by_cases hpaid : paid b = 0
      · have hsame : accounts' b = accounts b := by
          rw [h.credited b hb, hpaid]
          rfl
        rw [hsame]
        exact Runtime.rentAllowed_self _
      · exact (hcredited hb hpaid).mpr (hexempt b hb hpaid)

theorem Backed.walletReserve_le {lamports : ℕ} (h : Backed R a e lamports) :
    R.walletReserve ≤ lamports - e.amount.toNat :=
  R.walletReserve_le.trans (Nat.le_sub_of_add_le' h.reserve)

/-- A refund always stands. -/
theorem Settles.permits_refund (hbacked : Backed R a e (accounts.lamports a))
    (h : Settles accounts accounts' a (refundPayout e (accounts.lamports a))) :
    R.Permits accounts accounts' := by
  refine h.permits_iff.mpr fun b _ hpaid ↦ ?_
  rw [refundPayout] at hpaid ⊢
  split at hpaid
  · next hb =>
    rw [if_pos hb]
    exact (hbacked.walletReserve_le.trans (Nat.sub_le _ _)).trans (Nat.le_add_left _ _)
  · exact absurd rfl hpaid

/-- A release stands exactly if it leaves the recipient exempt. -/
theorem Settles.permits_release_iff (hbacked : Backed R a e (accounts.lamports a))
    (hamount : 0 < e.amount) (hrecipient : e.recipient ≠ a)
    (h : Settles accounts accounts' a (releasePayout e (accounts.lamports a))) :
    R.Permits accounts accounts' ↔
      R.walletReserve ≤ accounts.lamports e.recipient + e.amount.toNat := by
  have hpaid : releasePayout e (accounts.lamports a) e.recipient = e.amount.toNat := if_pos rfl
  have hpos : e.amount.toNat ≠ 0 := (UInt64.lt_iff_toNat_lt.mp hamount).ne'
  rw [h.permits_iff]
  constructor
  · intro hexempt
    have hself := hexempt e.recipient hrecipient (hpaid ▸ hpos)
    rwa [hpaid] at hself
  · intro hexempt b hb hpaid'
    by_cases hbr : b = e.recipient
    · rw [hbr, hpaid]
      exact hexempt
    · rw [releasePayout, if_neg hbr] at hpaid' ⊢
      split at hpaid'
      · next hbs =>
        rw [if_pos hbs]
        exact hbacked.walletReserve_le.trans (Nat.le_add_left _ _)
      · exact absurd rfl hpaid'

/-- A creation stands exactly if the sender may keep what is left. -/
theorem createEscrow_permits_iff {sender recipient : Pubkey} {args : CreateEscrowArgs}
    {ev : EscrowEvent}
    (h : createEscrow R sender recipient a args accounts = .ok (accounts', ev)) :
    R.Permits accounts accounts' ↔ R.MayKeep (accounts.lamports sender)
      (accounts.lamports sender - (R.rentReserve - accounts.lamports a + args.amount.toNat)) := by
  obtain ⟨-, hself, hother⟩ := createEscrow_data h
  obtain ⟨hsign, haddress, -, -, -, initialized, funded, hinit, hfund, hend, -⟩ :=
    createEscrow_eq_ok.mp h
  have hsender : sender ≠ a := R.ne_of_canSign haddress hsign
  obtain ⟨hwallet, -, hinit'⟩ := systemTransfer_lamports hinit
  obtain ⟨-, -, hfund'⟩ := systemTransfer_lamports hfund
  have hlamports : accounts'.lamports = Ledger.move (Ledger.move accounts.lamports sender a
      (R.rentReserve - accounts.lamports a)) sender a args.amount.toNat := by
    rw [hend, setData_lamports, hfund', hinit']
    rfl
  have hrest : accounts' sender = ⟨accounts.lamports sender -
      (R.rentReserve - accounts.lamports a + args.amount.toNat), none⟩ := by
    refine Account.ext' ?_ ((hother sender hsender).trans hwallet)
    change accounts'.lamports sender = _
    rw [hlamports, Ledger.move_source hsender, Ledger.move_source hsender, Nat.sub_sub]
  have hbefore : accounts sender = ⟨accounts.lamports sender, none⟩ := Account.ext' rfl hwallet
  rw [← Runtime.rentAllowed_debit_iff, ← hrest, ← hbefore]
  refine ⟨fun hpermits ↦ hpermits sender, fun hallowed b ↦ ?_⟩
  by_cases hbs : b = sender
  · rw [hbs]
    exact hallowed
  by_cases hba : b = a
  · -- The new account has its reserve.
    have hreserve : R.reserve (accounts' a) = R.rentReserve := by
      rw [Runtime.reserve, hself]
      rfl
    rw [hba]
    refine Runtime.rentAllowed_iff.mpr (.inr (.inl ?_))
    change _ ≤ accounts'.lamports a
    rw [hreserve, hlamports, Ledger.move_destination hsender, Ledger.move_destination hsender]
    omega
  · have hsame : accounts' b = accounts b := by
      refine Account.ext' ?_ (hother b hba)
      change accounts'.lamports b = accounts.lamports b
      rw [hlamports, Ledger.move_other hbs hba, Ledger.move_other hbs hba]
    rw [hsame]
    exact Runtime.rentAllowed_self _

end Zescrow.Solana
