import Zescrow.Ethereum.Exit
import Zescrow.Ethereum.Window
import Zescrow.Solana.Replay
import Zescrow.Solana.Window

/-!
# Who has an exclusive release window

On both chains the recipient of an escrow that can be cancelled has a height at which a release is
open and a refund is not, exactly if the escrow was created before its cancellation height. Neither
agent checks that: it is the sender who decides whether there is a window.
-/

open Foundation

namespace Zescrow

/-- **The release window is exclusive for prompt creations.** In every state either agent reaches,
an escrow that can be cancelled has a release window after its creation if and only if it was
created before its cancellation height; hence all have one after a run of prompt creations. -/
theorem exclusive_window_iff (D : Ethereum.Deployment) (forced block : ℕ)
    (calls : List Ethereum.Action) (i : Ethereum.Word) (R : Solana.Runtime)
    (lamports : Solana.Pubkey → ℕ) (slot : ℕ) (actions : List Solana.Action) (a : Solana.Pubkey)
    (e : Solana.EscrowAccount) (t : UInt64) :
    (let w := ((Ethereum.Machine.init forced block).run D calls).world;
      (w.storage.escrows i).sender ≠ 0 → (w.storage.escrows i).cancelAfter ≠ 0 →
      ∃ h, Ethereum.createdAt w.log i = some h ∧
        ((w.storage.escrows i).timeLock.HasWindow h ↔
          h < (w.storage.escrows i).cancelAfter.toNat) ∧
        (Along (Ethereum.Machine.step D) Ethereum.Prompt (.init forced block) calls →
          (w.storage.escrows i).timeLock.HasWindow h)) ∧
    let w := (Solana.World.init lamports slot).run R actions
    (w.accounts a).data = some e → e.cancelAfter = some t →
      ∃ h, (Solana.births R (.init lamports slot) actions)[w.serial a]? = some (h, e) ∧
        (e.timeLock.HasWindow h ↔ h < t.toNat) ∧
        (Along (Solana.World.step R) Solana.Prompt (.init lamports slot) actions →
          e.timeLock.HasWindow h) := by
  constructor
  · intro w hsender hcancel
    obtain ⟨h, hat, hiff, hprompt⟩ :=
      Ethereum.Machine.hasWindow_iff D forced block calls i hsender hcancel
    exact ⟨h, hat, hiff, fun halong ↦ hiff.mpr (hprompt halong)⟩
  · intro w he ht
    obtain ⟨h, hbirth, hiff, hprompt⟩ := Solana.World.hasWindow_iff R lamports slot actions he ht
    exact ⟨h, hbirth, hiff, fun halong ↦ hiff.mpr (hprompt halong)⟩

/-- An unconditioned escrow that can be cancelled from slot 100 on. -/
def lateArgs : Solana.CreateEscrowArgs :=
  { Solana.sampleArgs with finishAfter := none, cancelAfter := some 100 }

/-- The account of that escrow. -/
def lateEscrow : Solana.EscrowAccount :=
  Solana.newEscrow .sample Solana.sampleEscrow.sender Solana.sampleEscrow.recipient lateArgs

/-- Its address. -/
def lateAddress : Solana.Pubkey :=
  (Solana.Runtime.sample.findProgramAddress
    (Solana.escrowSeeds lateEscrow.sender lateEscrow.recipient lateEscrow.id)).1

/-- Its creation. -/
def lateCreation : List Solana.Action :=
  [.create Solana.sampleEscrow.sender Solana.sampleEscrow.recipient lateAddress lateArgs]

/-- The same on the EVM. -/
def lateCall : List Ethereum.Action := [.call 1 5 0 (.createEscrow 2 0 100 0)]

/-- Created at height 50, an escrow that can be cancelled from height 100 on has a window. -/
theorem exclusive_window_iff_sample :
    (∃ h, Ethereum.createdAt ((Ethereum.Machine.init 0 50).run Ethereum.refusingDeployment
        lateCall).world.log 1 = some h ∧
      (((Ethereum.Machine.init 0 50).run Ethereum.refusingDeployment
        lateCall).world.storage.escrows 1).timeLock.HasWindow h) ∧
    ∃ h, (Solana.births .sample (.init (fun _ ↦ 10000000) 50) lateCreation)[0]?
        = some (h, lateEscrow) ∧ lateEscrow.timeLock.HasWindow h := by
  obtain ⟨hcalls, hactions⟩ := exclusive_window_iff Ethereum.refusingDeployment 0 50 lateCall 1
    .sample (fun _ ↦ 10000000) 50 lateCreation lateAddress lateEscrow 100
  constructor
  · obtain ⟨h, hat, -, hprompt⟩ := hcalls (by decide) (by decide)
    refine ⟨h, hat, hprompt ⟨fun _ ↦ ?_, trivial⟩⟩
    decide
  · obtain ⟨h, hbirth, -, hprompt⟩ := hactions (by decide +kernel) rfl
    have hserial : ((Solana.World.init (fun _ ↦ 10000000) 50).run .sample lateCreation).serial
        lateAddress = 0 := by
      decide +kernel
    rw [hserial] at hbirth
    refine ⟨h, hbirth, hprompt ⟨fun t ht ↦ ?_, trivial⟩⟩
    have hcancel : lateArgs.cancelAfter = some 100 := rfl
    obtain rfl := Option.some.inj (hcancel.symm.trans ht)
    decide

/-- Created at height 200, an escrow that can be cancelled from height 100 on has no window. -/
theorem no_exclusive_window :
    ((((Solana.World.init (fun _ ↦ 10000000) 200).run .sample lateCreation).accounts
        lateAddress).data = some lateEscrow ∧
      (Solana.births .sample (.init (fun _ ↦ 10000000) 200) lateCreation)[0]?
        = some (200, lateEscrow) ∧
      ((Solana.World.init (fun _ ↦ 10000000) 200).run .sample lateCreation).serial lateAddress = 0 ∧
      lateEscrow.cancelAfter = some 100 ∧ ¬lateEscrow.timeLock.HasWindow 200) ∧
    ∃ r, ((Ethereum.Machine.init 0 200).run Ethereum.refusingDeployment
        lateCall).world.storage.escrows 1 = r ∧ r.sender ≠ 0 ∧ r.settled = false ∧
      Ethereum.createdAt ((Ethereum.Machine.init 0 200).run Ethereum.refusingDeployment
        lateCall).world.log 1 = some 200 ∧ r.cancelAfter = 100 ∧ ¬r.timeLock.HasWindow 200 := by
  have hno {l : TimeLock} (hcancel : l.cancelAfter = some 100) : ¬l.HasWindow 200 := by
    rintro ⟨n, hn, -, hclosed⟩
    exact hclosed ⟨100, hcancel, by omega⟩
  refine ⟨⟨by decide +kernel, by decide +kernel, by decide +kernel, rfl, hno rfl⟩, ?_⟩
  exact ⟨_, rfl, by decide, by decide, by decide, by decide, hno (by decide)⟩

end Zescrow
