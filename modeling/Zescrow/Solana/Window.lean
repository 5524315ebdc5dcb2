import Zescrow.Foundation.TimeLock
import Zescrow.Solana.Runs

/-!
# The release window on Solana

`create_escrow` orders the two deadlines of an escrow and does not read the clock.
-/

open Foundation

namespace Zescrow.Solana

def EscrowAccount.timeLock (escrow : EscrowAccount) : TimeLock :=
  ⟨escrow.finishAfter.map UInt64.toNat, escrow.cancelAfter.map UInt64.toNat⟩

/-- The guard of `finish_escrow`. -/
theorem EscrowAccount.finishOpen_iff {escrow : EscrowAccount} {n : ℕ} :
    escrow.timeLock.FinishOpen n ↔ ∀ t, escrow.finishAfter = some t → t.toNat ≤ n := by
  rw [TimeLock.FinishOpen, timeLock]
  simp only [Option.map_eq_some_iff, forall_exists_index, and_imp, forall_apply_eq_imp_iff₂]

/-- The guards of `cancel_escrow`. -/
theorem EscrowAccount.cancelOpen_iff {escrow : EscrowAccount} {n : ℕ} :
    escrow.timeLock.CancelOpen n ↔ ∃ t, escrow.cancelAfter = some t ∧ t.toNat ≤ n := by
  rw [TimeLock.CancelOpen, timeLock]
  simp only [Option.map_eq_some_iff, exists_exists_and_eq_and]

/-! ## What a closed lock is answered with -/

section

variable {R : Runtime} {slot moment : ℕ} {recipient sender a verifierRouter : Pubkey}
  {remaining : List AccountMeta} {receiptSeal : Bytes} {accounts : Accounts}

theorem loadEscrow_bind_eq_error {γ : Type} {f : EscrowAccount → Except ProgramError γ}
    {e : ProgramError} (he : .accountNotInitialized ≠ e) :
    (loadEscrow a accounts >>= f) = .error e ↔
      ∃ escrow, (accounts a).data = some escrow ∧ f escrow = .error e := by
  rw [bind_eq_error]
  simp only [loadEscrow_eq_ok, or_iff_right_iff_imp]
  intro h
  rw [loadEscrow] at h
  split at h
  · exact absurd (Except.error.inj h) he
  · exact absurd h ok_ne_error

theorem failsOnly_closing {destination : Pubkey} {γ : Type} {r : Accounts → γ} {e : ProgramError}
    (he : .arithmeticOverflow ≠ e) :
    FailsOnly (· ≠ e) (closeAccount a destination accounts >>= fun accounts ↦ .ok (r accounts)) :=
  failsOnly_bind (failsOnly_bind (failsOnly_guard (fun _ ↦ he) fun _ ↦ failsOnly_ok _)
    fun _ _ ↦ failsOnly_ok _) fun _ _ ↦ failsOnly_ok _

/-- `finish_escrow` is answered with its time error exactly if the lock is not open for a release
and none of the checks before that one fails. -/
theorem finishEscrow_eq_notReady :
    finishEscrow R slot moment recipient sender a verifierRouter remaining receiptSeal accounts
        = .error .notReady ↔
      R.canSign recipient = true ∧ ∃ escrow, (accounts a).data = some escrow ∧
        sender = escrow.sender ∧
        R.createProgramAddress (escrowSeeds escrow.sender recipient escrow.id ++ [[escrow.bump]])
          = some a ∧
        verifierRouter = verifierRouterId ∧ recipient = escrow.recipient ∧
        ¬escrow.timeLock.FinishOpen slot := by
  rw [finishEscrow]
  simp (disch := decide) only [ensure_bind_eq_error_of_ne, loadEscrow_bind_eq_error]
  refine and_congr_right' (exists_congr fun escrow ↦ and_congr_right' <| and_congr_right' <|
    and_congr_right' <| and_congr_right' <| and_congr_right' ?_)
  rw [bind_eq_error]
  refine (or_iff_left ?_).trans ?_
  · -- Nothing behind the check reports its error.
    rintro ⟨-, -, hrest⟩
    refine failsOnly_bind (P := (· ≠ .notReady)) ?_ (fun _ _ ↦ ?_) _ hrest rfl
    · split
      · exact failsOnly_ensure fun _ ↦ ProgramError.noConfusion
      · exact failsOnly_ok _
    · exact failsOnly_guard (fun _ ↦ ProgramError.noConfusion) fun _ ↦
        failsOnly_bind (failsOnly_guard (fun _ ↦ ProgramError.noConfusion) fun _ ↦ failsOnly_ok _)
          fun _ _ ↦ failsOnly_closing ProgramError.noConfusion
  · rw [EscrowAccount.finishOpen_iff]
    cases escrow.finishAfter with
    | none => exact iff_of_false ok_ne_error fun hclosed ↦ hclosed fun t ht ↦
        absurd ht.symm (Option.some_ne_none t)
    | some t =>
      rw [ensure_eq_error, and_iff_left rfl]
      simp only [Option.some.injEq, forall_eq']

/-- `cancel_escrow` is answered with one of its time errors exactly if the lock is not open for a
refund and none of the checks before these fails. -/
theorem cancelEscrow_eq_notExpired :
    cancelEscrow R slot sender a accounts = .error .cancelNotAllowed ∨
        cancelEscrow R slot sender a accounts = .error .notExpired ↔
      R.canSign sender = true ∧ ∃ escrow, (accounts a).data = some escrow ∧
        R.createProgramAddress (escrowSeeds sender escrow.recipient escrow.id ++ [[escrow.bump]])
          = some a ∧
        sender = escrow.sender ∧ ¬escrow.timeLock.CancelOpen slot := by
  rw [cancelEscrow]
  simp (disch := decide) only [ensure_bind_eq_error_of_ne, loadEscrow_bind_eq_error]
  rw [← and_or_left, ← exists_or]
  refine and_congr_right' (exists_congr fun escrow ↦ ?_)
  rw [← and_or_left, ← and_or_left, ← and_or_left, EscrowAccount.cancelOpen_iff]
  refine and_congr_right' <| and_congr_right' <| and_congr_right' ?_
  cases escrow.cancelAfter with
  | none =>
    refine iff_of_true (.inl rfl) ?_
    rintro ⟨t, ht, -⟩
    exact absurd ht.symm (Option.some_ne_none t)
  | some t =>
    have hother : ¬(closeAccount a sender accounts >>= fun accounts ↦
        .ok (accounts, escrow.event .cancelled)) = .error .cancelNotAllowed :=
      fun h ↦ failsOnly_closing ProgramError.noConfusion _ h rfl
    rw [ok_bind, ensure_bind_eq_error_of_ne (by decide),
      ensure_bind_eq_error_self (failsOnly_closing ProgramError.noConfusion),
      or_iff_right fun h ↦ hother h.2]
    simp only [Option.some.injEq, exists_eq_left']

end

/-- The checks of `create_escrow` on its arguments. -/
theorem validateArgs_iff_admissible (R : Runtime) (sender recipient : Pubkey)
    (args : CreateEscrowArgs) : validateArgs args = .ok () ↔
      (newEscrow R sender recipient args).timeLock.Admissible (args.condition ≠ noCondition) ∧
        0 < args.amount := by
  have hsome (t : Option UInt64) : t.map UInt64.toNat ≠ none ↔ t.isSome := by
    rw [Ne, Option.map_eq_none_iff, Option.isSome_iff_ne_none]
  have hgetD (t : Option UInt64) : (t.map UInt64.toNat).getD 0 = (t.getD 0).toNat :=
    Option.getD_map UInt64.toNat 0 t
  have hordered : (newEscrow R sender recipient args).timeLock.Ordered ↔
      ∀ cancel, args.cancelAfter = some cancel → args.finishAfter.getD 0 < cancel := by
    rw [TimeLock.Ordered, EscrowAccount.timeLock, newEscrow, hgetD]
    simp only [Option.map_eq_some_iff, forall_exists_index, and_imp, forall_apply_eq_imp_iff₂,
      UInt64.lt_iff_toNat_lt]
  rw [validateArgs_eq_ok, or_iff_not_imp_left (a := args.condition = noCondition),
    TimeLock.admissible_iff, hordered, EscrowAccount.timeLock, newEscrow, hsome, hsome, and_assoc,
    and_assoc]

theorem ordered_timeLock {R : Runtime} {sender recipient : Pubkey} {args : CreateEscrowArgs}
    (h : validateArgs args = .ok ()) : (newEscrow R sender recipient args).timeLock.Ordered :=
  ((validateArgs_iff_admissible R sender recipient args).mp h).1.ordered

/-- An action does not create an escrow that could be cancelled at once. -/
def Prompt (w : World) : Action → Prop
  | .create _ _ _ args => ∀ t, args.cancelAfter = some t → w.slot < t.toNat
  | _ => True

/-- **The release window of an escrow.** A live escrow that can be cancelled has one exactly if it
was created before it could be; so all have along prompt creations. -/
theorem World.hasWindow_iff (R : Runtime) (lamports : Pubkey → ℕ) (slot : ℕ) (actions : List Action)
    {a : Pubkey} {e : EscrowAccount} {t : UInt64}
    (he : (((init lamports slot).run R actions).accounts a).data = some e)
    (ht : e.cancelAfter = some t) :
    ∃ h, (births R (init lamports slot) actions)[((init lamports slot).run R actions).serial a]?
        = some (h, e) ∧
      (e.timeLock.HasWindow h ↔ h < t.toNat) ∧
      (Along (step R) Prompt (init lamports slot) actions → h < t.toNat) := by
  obtain ⟨h, hbirth⟩ := exists_birth R lamports slot actions he
  have hmem := List.mem_of_getElem? hbirth
  have hcancel : e.timeLock.cancelAfter = some t.toNat := Option.map_eq_some_iff.mpr ⟨t, ht, rfl⟩
  refine ⟨h, hbirth, TimeLock.hasWindow_iff ?_ hcancel h, fun hprompt ↦ ?_⟩
  · have hordered := births_induction (A := fun _ _ ↦ True) (P := fun _ e ↦ e.timeLock.Ordered)
      (fun _ _ _ _ _ _ hargs ↦ ordered_timeLock (R := R) hargs)
      (along_of_forall (fun _ _ ↦ trivial) (init lamports slot) actions)
    exact hordered _ hmem
  · have hbefore := births_induction (P := fun h e ↦ ∀ t, e.cancelAfter = some t → h < t.toNat)
      (fun _ _ _ _ _ hprompt _ ↦ hprompt) hprompt
    exact hbefore _ hmem t ht

end Zescrow.Solana
