import Zescrow.Solana.Rent
import Zescrow.Solana.Replay

/-!
# A way out without a proof

Every live escrow account can be settled without a proof from some slot on, which its terms fix: by
a refund if it can be cancelled, and otherwise by a release. An account stays live, with its data
and its address, until it is settled, so no other instruction takes that away.

A settlement that its terms allow does not fail for want of lamports or for an overflow: the account
holds its amount, and the lamports of all accounts fit 64 bits. A refund is not refused for the rent
of anyone either; a release takes a recipient who signs and is left exempt.
-/

open Foundation

namespace Zescrow.Solana

/-! ## What every live account satisfies -/

/-- What a creation leaves in the account data of `e`: the bump of its address, an amount, and a way
out. -/
structure EscrowAccount.Exitable (R : Runtime) (e : EscrowAccount) : Prop where
  bump : e.bump = (R.findProgramAddress (escrowSeeds e.sender e.recipient e.id)).2
  amount : 0 < e.amount
  deadline : e.condition ≠ noCondition → e.cancelAfter ≠ none

theorem newEscrow_exitable {R : Runtime} {sender recipient : Pubkey} {args : CreateEscrowArgs}
    (h : validateArgs args = .ok ()) : (newEscrow R sender recipient args).Exitable R where
  bump := rfl
  amount := by
    obtain ⟨-, -, -, hamount⟩ := validateArgs_eq_ok.mp h
    exact hamount
  deadline := fun hcond ↦ by
    obtain ⟨-, hcancel, -⟩ := validateArgs_eq_ok.mp h
    exact Option.isSome_iff_ne_none.mp (hcancel.resolve_left hcond)

theorem World.exitable (R : Runtime) (lamports : Pubkey → ℕ) (slot : ℕ) (actions : List Action)
    {a : Pubkey} {e : EscrowAccount}
    (h : (((init lamports slot).run R actions).accounts a).data = some e) : e.Exitable R := by
  obtain ⟨n, hbirth⟩ := exists_birth R lamports slot actions h
  exact births_induction (A := fun _ _ ↦ True) (P := fun _ e ↦ e.Exitable R)
    (fun _ _ _ _ _ _ hargs ↦ newEscrow_exitable hargs)
    (along_of_forall (fun _ _ ↦ trivial) _ _) _ (List.mem_of_getElem? hbirth)

theorem Backed.createProgramAddress_eq {R : Runtime} {a : Pubkey} {e : EscrowAccount} {lamports : ℕ}
    (h : Backed R a e lamports) (he : e.Exitable R) :
    R.createProgramAddress (escrowSeeds e.sender e.recipient e.id ++ [[e.bump]]) = some a := by
  rw [he.bump, R.createProgramAddress_find, ← h.address]

/-! ## Settlements that are allowed succeed -/

section

variable {R : Runtime} {accounts : Accounts} {a : Pubkey} {e : EscrowAccount}

theorem Funded.exists_cancel (hf : Funded R accounts)
    (htotal : Ledger.total accounts.lamports < 2 ^ 64) (hdata : (accounts a).data = some e)
    {slot : ℕ} (hallowed : CancelAllowed R slot e.sender a e) :
    ∃ accounts', cancelEscrow R slot e.sender a accounts = .ok (accounts', e.event .cancelled) := by
  have hsender : e.sender ≠ a := (hf a e hdata).ne_of_canSign hallowed.signed
  have hcredit := (Ledger.add_le_total (f := accounts.lamports) hsender).trans_lt htotal
  exact ⟨_, cancelEscrow_eq_ok.mpr
    ⟨e, hdata, hallowed, closeAccount_eq_ok.mpr ⟨hcredit, rfl⟩, rfl⟩⟩

theorem Funded.exists_finish (hf : Funded R accounts)
    (htotal : Ledger.total accounts.lamports < 2 ^ 64) (hdata : (accounts a).data = some e)
    {slot moment : ℕ} {remaining : List AccountMeta} {receiptSeal : Bytes}
    (hallowed : FinishAllowed R slot moment e.recipient e.sender a verifierRouterId remaining
      receiptSeal e) :
    ∃ accounts', finishEscrow R slot moment e.recipient e.sender a verifierRouterId remaining
      receiptSeal accounts = .ok (accounts', e.event .finished) := by
  have hbacked := hf a e hdata
  have hrecipient : e.recipient ≠ a := hbacked.ne_of_canSign hallowed.signed
  have hsender : e.sender ≠ a := hbacked.ne_of_canSign hbacked.sender
  have hamount : e.amount.toNat ≤ accounts.lamports a :=
    (Nat.le_add_right _ _).trans hbacked.reserve
  have hcredit : (accounts e.recipient).lamports + e.amount.toNat < 2 ^ 64 :=
    ((Nat.add_le_add_left hamount _).trans (Ledger.add_le_total hrecipient)).trans_lt htotal
  -- The release leaves the total as it was, so closing does not overflow either.
  have hreleased : Ledger.total (accounts.released a e.recipient e.amount.toNat).lamports
      < 2 ^ 64 := by
    rw [released_lamports _ hrecipient, Ledger.total_move hamount]
    exact htotal
  have hclose := (Ledger.add_le_total hsender).trans_lt hreleased
  exact ⟨_, finishEscrow_eq_ok.mpr
    ⟨e, hdata, hallowed, hamount, hcredit, closeAccount_eq_ok.mpr ⟨hclose, rfl⟩, rfl⟩⟩

/-- What a release of a live account pays, and when the runtime lets it stand. -/
theorem Funded.finish_settles (hf : Funded R accounts) (hdata : (accounts a).data = some e)
    (he : e.Exitable R) {slot moment : ℕ} {recipient sender verifierRouter : Pubkey}
    {remaining : List AccountMeta} {receiptSeal : Bytes} {accounts' : Accounts} {ev : EscrowEvent}
    (h : finishEscrow R slot moment recipient sender a verifierRouter remaining receiptSeal accounts
      = .ok (accounts', ev)) :
    Settles accounts accounts' a (releasePayout e (accounts a).lamports) ∧
      (R.Permits accounts accounts' ↔
        R.walletReserve ≤ (accounts e.recipient).lamports + e.amount.toNat) := by
  obtain ⟨_, hdata', hallowed, -⟩ := finishEscrow_eq_ok.mp h
  obtain rfl := Option.some.inj (hdata.symm.trans hdata')
  obtain ⟨_, hdata', hsettles⟩ := hf.finish h
  obtain rfl := Option.some.inj (hdata.symm.trans hdata')
  have hbacked := hf a e hdata
  exact ⟨hsettles, hsettles.permits_release_iff hbacked he.amount
    (hbacked.ne_of_canSign (hallowed.caller ▸ hallowed.signed))⟩

theorem Funded.cancel_settles (hf : Funded R accounts) (hdata : (accounts a).data = some e)
    {slot : ℕ} {sender : Pubkey} {accounts' : Accounts} {ev : EscrowEvent}
    (h : cancelEscrow R slot sender a accounts = .ok (accounts', ev)) :
    Settles accounts accounts' a (refundPayout e (accounts a).lamports) ∧
      R.Permits accounts accounts' := by
  obtain ⟨_, hdata', hsettles⟩ := hf.cancel h
  obtain rfl := Option.some.inj (hdata.symm.trans hdata')
  exact ⟨hsettles, hsettles.permits_refund (hf a e hdata)⟩

end

/-! ## A live account stays until it is settled -/

/-- Escrow number `k` is settled, or is the live account `e` at `a`. -/
def World.Keeps (w : World) (k : ℕ) (a : Pubkey) (e : EscrowAccount) : Prop :=
  k ∈ w.settled ∨ (w.accounts a).data = some e ∧ w.serial a = k

section

variable {w : World} {k : ℕ} {a : Pubkey} {e : EscrowAccount}

theorem World.settled_afterSettle (w : World) (accounts : Accounts) (b : Pubkey)
    (escrow : EscrowAccount) (kind : SettlementKind) :
    (w.afterSettle accounts b escrow kind).settled = w.settled ++ [w.serial b] := List.map_append

theorem World.Keeps.settle (h : w.Keeps k a e) {b : Pubkey} {kind : SettlementKind}
    {result : Except ProgramError (Accounts × EscrowEvent)}
    (hother : ∀ accounts ev, result = .ok (accounts, ev) →
      ∀ c, c ≠ b → (accounts c).data = (w.accounts c).data) :
    (w.settle b kind result).Keeps k a e := by
  unfold World.settle
  split
  · next escrow accounts ev hdata =>
    rw [Keeps, settled_afterSettle, List.mem_append]
    rcases h with h | ⟨hlive, hserial⟩
    · exact .inl (.inl h)
    · by_cases hab : a = b
      · subst hab
        exact .inl (.inr (List.mem_singleton.mpr hserial.symm))
      · exact .inr ⟨(hother accounts ev rfl a hab).trans hlive, hserial⟩
  · exact h

theorem World.Keeps.step (h : w.Keeps k a e) (R : Runtime) (action : Action) :
    (w.step R action).Keeps k a e := by
  cases action with
  | create sender recipient b args =>
    rw [World.step]
    split
    · exact h
    · next accounts ev hcreate =>
      obtain ⟨hnone, -, hother⟩ := createEscrow_data hcreate
      rcases h with h | ⟨hlive, hserial⟩
      · exact .inl h
      · -- An address in use is not initialized again.
        have hab : a ≠ b := by
          rintro rfl
          rw [hnone] at hlive
          exact absurd hlive.symm (Option.some_ne_none _)
        exact .inr ⟨(hother a hab).trans hlive, (Function.update_of_ne hab ..).trans hserial⟩
  | finish => exact h.settle fun _ _ hok ↦ (finishEscrow_data hok).2
  | cancel => exact h.settle fun _ _ hok ↦ (cancelEscrow_data hok).2
  | transfer source destination lamports =>
    rw [World.step]
    split
    · exact h
    · next accounts hok => exact h.imp id fun h' ↦ ⟨(systemTransfer_data hok a).trans h'.1, h'.2⟩
  | advance slots => exact h

theorem World.Keeps.run (h : w.Keeps k a e) (R : Runtime) (actions : List Action) :
    (w.run R actions).Keeps k a e :=
  run_induction (I := fun w : World ↦ w.Keeps k a e) (fun _ action hw ↦ hw.step R action) h actions

end

/-! ## The exit of an escrow -/

/-- The slot from which on `e` can be settled without a proof. -/
def EscrowAccount.exitSlot (e : EscrowAccount) : ℕ :=
  match e.cancelAfter with
  | some cancelAfter => cancelAfter.toNat
  | none => (e.finishAfter.getD 0).toNat

/-- The instruction that settles the account at `a` with data `e` without a proof. -/
def EscrowAccount.exitAction (e : EscrowAccount) (a : Pubkey) (moment : ℕ) : Action :=
  match e.cancelAfter with
  | some _ => .cancel e.sender a
  | none => .finish e.recipient e.sender a verifierRouterId [] [] moment

/-- How that settles it. -/
def EscrowAccount.exitKind (e : EscrowAccount) : SettlementKind :=
  match e.cancelAfter with
  | some _ => .refunded
  | none => .released []

/-- What that pays, when the account holds `lamports`. -/
def EscrowAccount.exitPayout (e : EscrowAccount) (lamports : ℕ) : Pubkey → ℕ :=
  match e.cancelAfter with
  | some _ => refundPayout e lamports
  | none => releasePayout e lamports

/-- What an exit by a release asks of the recipient: to sign, and to be left exempt from rent. -/
def EscrowAccount.Receivable (R : Runtime) (accounts : Accounts) (e : EscrowAccount) : Prop :=
  R.canSign e.recipient = true ∧
    R.walletReserve ≤ (accounts e.recipient).lamports + e.amount.toNat

theorem World.exit_settles {R : Runtime} {w : World} (hf : Funded R w.accounts)
    (htotal : Ledger.total w.accounts.lamports < 2 ^ 64) {a : Pubkey} {e : EscrowAccount}
    (hdata : (w.accounts a).data = some e) (he : e.Exitable R) (hslot : e.exitSlot ≤ w.slot)
    (hreceives : e.cancelAfter = none → e.Receivable R w.accounts) (moment : ℕ) :
    Settles w.accounts (w.step R (e.exitAction a moment)).accounts a
        (e.exitPayout (w.accounts a).lamports) ∧
      R.Permits w.accounts (w.step R (e.exitAction a moment)).accounts ∧
      (w.step R (e.exitAction a moment)).settlements
        = w.settlements ++ [⟨w.serial a, e, e.exitKind⟩] := by
  have hbacked := hf a e hdata
  have hseeds := hbacked.createProgramAddress_eq he
  rw [EscrowAccount.exitSlot] at hslot
  rw [EscrowAccount.exitAction, EscrowAccount.exitPayout, EscrowAccount.exitKind]
  cases hcancel : e.cancelAfter with
  | some t =>
    rw [hcancel] at hslot
    have hallowed : CancelAllowed R w.slot e.sender a e :=
      ⟨hbacked.sender, hseeds, rfl, t, hcancel, hslot⟩
    obtain ⟨accounts, hok⟩ := hf.exists_cancel htotal hdata hallowed
    obtain ⟨hpaid, hpermits⟩ := hf.cancel_settles hdata hok
    simp only [step, settle, hok, hdata]
    exact ⟨hpaid, hpermits, rfl⟩
  | none =>
    rw [hcancel] at hslot
    obtain ⟨hsign, hexempt⟩ := hreceives hcancel
    have hallowed :
        FinishAllowed R w.slot moment e.recipient e.sender a verifierRouterId [] [] e := by
      refine ⟨hsign, rfl, hseeds, rfl, rfl, fun t ht ↦ ?_, fun hcond ↦ ?_⟩
      · rw [ht] at hslot
        exact hslot
      · exact absurd hcancel (he.deadline hcond)
    obtain ⟨accounts, hok⟩ := hf.exists_finish htotal hdata hallowed
    obtain ⟨hpaid, hpermits⟩ := hf.finish_settles hdata he hok
    simp only [step, settle, hok, hdata]
    exact ⟨hpaid, hpermits.mpr hexempt, rfl⟩

/-- **A proof-free exit always exists, and cannot be taken away.** A conditioned escrow can be
cancelled. Whatever happens after an escrow account was seen live, it has been settled since, or it
is live still; and then, at every slot from the one on that its terms fix, one instruction settles
it without a proof, and the runtime lets it: a refund to the sender if it can be cancelled, and
otherwise a release to the recipient, if the recipient can sign and is left exempt from rent. -/
theorem World.exit_persists (R : Runtime) (lamports : Pubkey → ℕ)
    (htotal : Ledger.total lamports < 2 ^ 64) (slot : ℕ) (actions : List Action) (a : Pubkey)
    (e : EscrowAccount) :
    let w := (init lamports slot).run R actions
    (w.accounts a).data = some e →
      (e.condition ≠ noCondition → e.cancelAfter ≠ none) ∧
      ∀ later, let w' := w.run R later
        w.serial a ∈ w'.settled ∨
          ∀ n moment, e.exitSlot ≤ n → w'.slot ≤ n →
            (e.cancelAfter = none → e.Receivable R w'.accounts) →
            let w'' := w'.run R [.advance (n - w'.slot), e.exitAction a moment]
            Settles w'.accounts w''.accounts a (e.exitPayout (w'.accounts a).lamports) ∧
              R.Permits w'.accounts w''.accounts ∧
              w''.settlements = w'.settlements ++ [⟨w.serial a, e, e.exitKind⟩] := by
  intro w hlive
  have he := exitable R lamports slot actions hlive
  refine ⟨he.deadline, fun later ↦ ?_⟩
  intro w'
  have hkeeps : w'.Keeps (w.serial a) a e := Keeps.run (.inr ⟨hlive, rfl⟩) R later
  refine hkeeps.imp id fun ⟨hlive', hserial⟩ n moment hn hslot hreceives ↦ ?_
  have hconserved : Conserved R (Ledger.total lamports) w' := by
    have h := conserved R lamports slot (actions ++ later)
    rw [World.run, run_append] at h
    exact h
  have hnow : ({ w' with slot := w'.slot + (n - w'.slot) } : World).slot = n :=
    Nat.add_sub_cancel' hslot
  rw [← hserial]
  refine exit_settles (w := { w' with slot := w'.slot + (n - w'.slot) }) hconserved.funded ?_ hlive'
    he (hn.trans hnow.ge) hreceives moment
  rw [hconserved.total]
  exact htotal

/-- Only the sender of the sample escrow has lamports. -/
def sampleLamports (a : Pubkey) : ℕ := if a = sampleEscrow.sender then 10000000 else 0

theorem total_sampleLamports : Ledger.total sampleLamports = 10000000 := by
  rw [Ledger.total, finsum_eq_single sampleLamports sampleEscrow.sender fun a ha ↦ if_neg ha]
  exact if_pos rfl

/-- The address of the sample escrow. -/
def sampleAddress : Pubkey :=
  (Runtime.sample.findProgramAddress
    (escrowSeeds sampleEscrow.sender sampleEscrow.recipient sampleEscrow.id)).1

/-- Its creation. -/
def sampleCreation : List Action :=
  [.create sampleEscrow.sender sampleEscrow.recipient sampleAddress sampleArgs]

/-- A conditioned escrow whose proof is never given is refunded. -/
theorem World.exit_persists_sample :
    let w := ((init sampleLamports 0).run .sample sampleCreation).run .sample [.advance 5]
    (w.run .sample [.advance (100 - w.slot), sampleEscrow.exitAction sampleAddress 0]).settlements
      = w.settlements ++
        [⟨((init sampleLamports 0).run .sample sampleCreation).serial sampleAddress, sampleEscrow,
          .refunded⟩] := by
  have hlive : (((init sampleLamports 0).run .sample sampleCreation).accounts sampleAddress).data
      = some sampleEscrow := by
    decide +kernel
  obtain ⟨-, hexit⟩ := exit_persists .sample sampleLamports
    (by rw [total_sampleLamports]; norm_num) 0 sampleCreation sampleAddress sampleEscrow hlive
  rcases hexit [.advance 5] with hsettled | hexit
  · exact absurd hsettled (by decide +kernel)
  · exact (hexit 100 0 (by decide) (by decide +kernel) fun h ↦ absurd h (by decide)).2.2

end Zescrow.Solana
