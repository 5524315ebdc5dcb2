import Zescrow.Foundation.Checkpoint
import Zescrow.Foundation.HashTree
import Zescrow.Solana.Program

/-!
# Runs of the Solana program

A run is any sequence of instructions by any parties, of transfers that have nothing to do with the
program, and of slots passing. An instruction that fails changes nothing, and the runtime does not
let the router call back, so instructions follow one another. Which instructions make up a
transaction is left open here, and so is the rent that the runtime asks for at the end of one: the
runs are all that the handlers can do.

The world numbers the escrow accounts in the order of their creation. An address can be initialized
again after it was closed, so it is the number, not the address, that tells one escrow from another;
what is recorded of a settlement is the number of the escrow and its account data.
-/

open Foundation

namespace Zescrow.Solana

/-- How an escrow was settled. -/
inductive SettlementKind where
  | released (receiptSeal : Bytes)
  | refunded
  deriving DecidableEq

/-- A settlement: the number of the escrow, its account data, and how. -/
structure Settlement where
  serial : ℕ
  escrow : EscrowAccount
  kind : SettlementKind
  deriving DecidableEq

/-- The accounts and the slot, with the escrow accounts created so far, the number of the creation
each address was last initialized by, and the settlements so far. -/
structure World where
  accounts : Accounts
  slot : ℕ
  created : List EscrowAccount
  serial : Pubkey → ℕ
  settlements : List Settlement

/-- No escrow account exists yet. -/
def World.init (lamports : Pubkey → ℕ) (slot : ℕ) : World where
  accounts a := ⟨lamports a, none⟩
  slot := slot
  created := []
  serial _ := 0
  settlements := []

inductive Action where
  | create (sender recipient escrowAccount : Pubkey) (args : CreateEscrowArgs)
  | finish (recipient sender escrowAccount verifierRouter : Pubkey)
      (remainingAccounts : List AccountMeta) (receiptSeal : Bytes) (moment : ℕ)
  | cancel (sender escrowAccount : Pubkey)
  /-- Lamports move outside the program. -/
  | transfer (source destination : Pubkey) (lamports : ℕ)
  /-- Slots pass. -/
  | advance (slots : ℕ)

/-- The world after an escrow account was created. -/
def World.afterCreate (w : World) (accounts : Accounts) (a : Pubkey) (escrow : EscrowAccount) :
    World :=
  { w with
    accounts := accounts
    created := w.created ++ [escrow]
    serial := Function.update w.serial a w.created.length }

/-- The world after the escrow at `a` was settled. -/
def World.afterSettle (w : World) (accounts : Accounts) (a : Pubkey) (escrow : EscrowAccount)
    (kind : SettlementKind) : World :=
  { w with
    accounts := accounts
    settlements := w.settlements ++ [⟨w.serial a, escrow, kind⟩] }

/-- A settling instruction on the account at `a`. -/
def World.settle (w : World) (a : Pubkey) (kind : SettlementKind)
    (result : Except ProgramError (Accounts × EscrowEvent)) : World :=
  match (w.accounts a).data, result with
  | some escrow, .ok (accounts, _) => w.afterSettle accounts a escrow kind
  | _, _ => w

/-- One action. What fails leaves the world as it is. -/
def World.step (R : Runtime) (w : World) : Action → World
  | .create sender recipient escrowAccount args =>
    match createEscrow R sender recipient escrowAccount args w.accounts with
    | .error _ => w
    | .ok (accounts, _) => w.afterCreate accounts escrowAccount (newEscrow R sender recipient args)
  | .finish recipient sender escrowAccount verifierRouter remainingAccounts receiptSeal moment =>
    w.settle escrowAccount (.released receiptSeal) (finishEscrow R w.slot moment recipient sender
      escrowAccount verifierRouter remainingAccounts receiptSeal w.accounts)
  | .cancel sender escrowAccount =>
    w.settle escrowAccount .refunded (cancelEscrow R w.slot sender escrowAccount w.accounts)
  | .transfer source destination lamports =>
    match systemTransfer source destination lamports w.accounts with
    | .error _ => w
    | .ok accounts => { w with accounts := accounts }
  | .advance slots => { w with slot := w.slot + slots }

/-- The world after a run. -/
abbrev World.run (R : Runtime) (w : World) (actions : List Action) : World :=
  Foundation.run (World.step R) w actions

/-! ## What the instructions do to account data -/

theorem setLamports_data (accounts : Accounts) (a b : Pubkey) (n : ℕ) :
    (accounts.setLamports a n b).data = (accounts b).data := by
  rw [Accounts.setLamports]
  by_cases h : b = a
  · subst h
    rw [Function.update_self]
  · rw [Function.update_of_ne h]

theorem setData_self (accounts : Accounts) (a : Pubkey) (data : Option EscrowAccount) :
    (accounts.setData a data a).data = data := by
  rw [Accounts.setData, Function.update_self]

theorem setData_of_ne {accounts : Accounts} {a b : Pubkey} {data : Option EscrowAccount}
    (h : b ≠ a) : (accounts.setData a data b).data = (accounts b).data := by
  rw [Accounts.setData, Function.update_of_ne h]

theorem systemTransfer_data {source destination : Pubkey} {n : ℕ} {accounts accounts' : Accounts}
    (h : systemTransfer source destination n accounts = .ok accounts') (b : Pubkey) :
    (accounts' b).data = (accounts b).data := by
  obtain ⟨-, -, -, rfl⟩ := systemTransfer_eq_ok.mp h
  rw [Accounts.transferred, setLamports_data, setLamports_data]

theorem closeAccount_data {a destination : Pubkey} {accounts accounts' : Accounts}
    (h : closeAccount a destination accounts = .ok accounts') :
    (accounts' a).data = none ∧ ∀ b, b ≠ a → (accounts' b).data = (accounts b).data := by
  obtain ⟨-, rfl⟩ := closeAccount_eq_ok.mp h
  refine ⟨setData_self _ _ _, fun b hb ↦ ?_⟩
  rw [Accounts.closed, setData_of_ne hb, setLamports_data, setLamports_data]

theorem createEscrow_data {R : Runtime} {sender recipient a : Pubkey} {args : CreateEscrowArgs}
    {accounts accounts' : Accounts} {e : EscrowEvent}
    (h : createEscrow R sender recipient a args accounts = .ok (accounts', e)) :
    (accounts a).data = none ∧ (accounts' a).data = some (newEscrow R sender recipient args) ∧
      ∀ b, b ≠ a → (accounts' b).data = (accounts b).data := by
  obtain ⟨-, -, -, -, hnone, initialized, funded, hinit, hfund, rfl, -⟩ := createEscrow_eq_ok.mp h
  refine ⟨hnone, setData_self _ _ _, fun b hb ↦ ?_⟩
  rw [setData_of_ne hb, systemTransfer_data hfund, systemTransfer_data hinit]

theorem finishEscrow_data {R : Runtime} {slot moment : ℕ}
    {recipient sender a verifierRouter : Pubkey} {remaining : List AccountMeta}
    {receiptSeal : Bytes} {accounts accounts' : Accounts} {e : EscrowEvent}
    (h : finishEscrow R slot moment recipient sender a verifierRouter remaining receiptSeal accounts
      = .ok (accounts', e)) :
    (accounts' a).data = none ∧ ∀ b, b ≠ a → (accounts' b).data = (accounts b).data := by
  obtain ⟨escrow, -, -, -, -, hclose, -⟩ := finishEscrow_eq_ok.mp h
  refine ⟨(closeAccount_data hclose).1, fun b hb ↦ ?_⟩
  rw [(closeAccount_data hclose).2 b hb, Accounts.released, setLamports_data, setLamports_data]

theorem cancelEscrow_data {R : Runtime} {slot : ℕ} {sender a : Pubkey}
    {accounts accounts' : Accounts} {e : EscrowEvent}
    (h : cancelEscrow R slot sender a accounts = .ok (accounts', e)) :
    (accounts' a).data = none ∧ ∀ b, b ≠ a → (accounts' b).data = (accounts b).data := by
  obtain ⟨escrow, -, -, hclose, -⟩ := cancelEscrow_eq_ok.mp h
  exact closeAccount_data hclose

theorem settle_error (w : World) (a : Pubkey) (kind : SettlementKind) (err : ProgramError) :
    w.settle a kind (.error err) = w := by
  unfold World.settle
  split
  · next h => exact absurd h error_ne_ok
  · rfl

theorem settle_eq_ok {w : World} {a : Pubkey} {e : EscrowAccount} {accounts : Accounts}
    {ev : EscrowEvent} (hdata : (w.accounts a).data = some e) (kind : SettlementKind) :
    w.settle a kind (.ok (accounts, ev)) = w.afterSettle accounts a e kind := by
  simp only [World.settle, hdata]

/-! ## What the instructions create -/

theorem settle_created (w : World) (a : Pubkey) (kind : SettlementKind)
    (result : Except ProgramError (Accounts × EscrowEvent)) :
    (w.settle a kind result).created = w.created := by
  unfold World.settle
  split
  · rfl
  · rfl

/-- What a step creates: nothing, or the account of a creation whose arguments passed. -/
theorem step_created (R : Runtime) (w : World) (action : Action) :
    (w.step R action).created = w.created ∨ ∃ sender recipient a args,
      action = .create sender recipient a args ∧ validateArgs args = .ok () ∧
        (w.step R action).created = w.created ++ [newEscrow R sender recipient args] := by
  cases action with
  | create sender recipient a args =>
    rw [World.step]
    split
    · exact Or.inl rfl
    · next accounts e h =>
      obtain ⟨-, -, -, hargs, -⟩ := createEscrow_eq_ok.mp h
      exact Or.inr ⟨sender, recipient, a, args, rfl, hargs, rfl⟩
  | finish | cancel => exact Or.inl (settle_created ..)
  | transfer source destination lamports =>
    rw [World.step]
    split
    · exact Or.inl rfl
    · exact Or.inl rfl
  | advance slots => exact Or.inl rfl

/-- The slot and the account data of each creation of a run, oldest first. -/
def births (R : Runtime) : World → List Action → List (ℕ × EscrowAccount)
  | _, [] => []
  | w, action :: actions =>
    ((w.step R action).created.drop w.created.length).map (w.slot, ·)
      ++ births R (w.step R action) actions

theorem created_run (R : Runtime) (w : World) (actions : List Action) :
    (w.run R actions).created = w.created ++ (births R w actions).map Prod.snd := by
  induction actions generalizing w with
  | nil => exact (List.append_nil _).symm
  | cons action actions ih =>
    have hstep : (w.step R action).created
        = w.created ++ (w.step R action).created.drop w.created.length := by
      rcases step_created R w action with heq | ⟨_, _, _, _, -, -, heq⟩
      · rw [heq, List.drop_length, List.append_nil]
      · rw [heq, List.drop_left]
    have hrun : w.run R (action :: actions) = (w.step R action).run R actions := rfl
    rw [hrun, ih, births, List.map_append, List.map_map, ← List.append_assoc]
    congr 1
    rw [hstep]
    simp

/-- What every creation whose action meets `A` satisfies, all births of a run satisfy along which
`A` holds. -/
theorem births_induction {R : Runtime} {A : World → Action → Prop} {P : ℕ → EscrowAccount → Prop}
    (hstep : ∀ w sender recipient a args, A w (.create sender recipient a args) →
      validateArgs args = .ok () → P w.slot (newEscrow R sender recipient args))
    {w : World} {actions : List Action} (h : Along (World.step R) A w actions) :
    ∀ b ∈ births R w actions, P b.1 b.2 := by
  induction actions generalizing w with
  | nil => exact fun b hb ↦ absurd hb List.not_mem_nil
  | cons action actions ih =>
    intro b hb
    rcases List.mem_append.mp hb with hb | hb
    · obtain ⟨e, he, rfl⟩ := List.mem_map.mp hb
      rcases step_created R w action with heq | ⟨sender, recipient, a, args, rfl, hargs, heq⟩
      · rw [heq, List.drop_length] at he
        exact absurd he List.not_mem_nil
      · rw [heq, List.drop_left, List.mem_singleton] at he
        rw [he]
        exact hstep w sender recipient a args h.1 hargs
    · exact ih h.2 b hb

/-! ## Each escrow is settled at most once -/

/-- The numbers of the escrows settled so far. -/
def World.settled (w : World) : List ℕ := w.settlements.map Settlement.serial

/-- The account data is what the record of creations and settlements says. -/
structure Tracked (w : World) : Prop where
  live : ∀ a e, (w.accounts a).data = some e →
    w.created[w.serial a]? = some e ∧ w.serial a ∉ w.settled
  distinct : ∀ a b e e', (w.accounts a).data = some e → (w.accounts b).data = some e' →
    w.serial a = w.serial b → a = b
  settlement : ∀ s ∈ w.settlements, w.created[s.serial]? = some s.escrow
  once : w.settled.Nodup

theorem Tracked.init (lamports : Pubkey → ℕ) (slot : ℕ) : Tracked (.init lamports slot) where
  live := fun _ _ h ↦ absurd h.symm (Option.some_ne_none _)
  distinct := fun _ _ _ _ h ↦ absurd h.symm (Option.some_ne_none _)
  settlement := fun _ h ↦ absurd h List.not_mem_nil
  once := List.nodup_nil

theorem Tracked.serial_lt {w : World} (hw : Tracked w) {a : Pubkey} {e : EscrowAccount}
    (h : (w.accounts a).data = some e) : w.serial a < w.created.length :=
  (List.getElem?_eq_some_iff.mp (hw.live a e h).1).1

theorem Tracked.settled_lt {w : World} (hw : Tracked w) {k : ℕ} (h : k ∈ w.settled) :
    k < w.created.length := by
  obtain ⟨s, hs, rfl⟩ := List.mem_map.mp h
  exact (List.getElem?_eq_some_iff.mp (hw.settlement s hs)).1

theorem Tracked.afterCreate {w : World} (hw : Tracked w) {accounts : Accounts} {a : Pubkey}
    {escrow : EscrowAccount} (hself : (accounts a).data = some escrow)
    (hother : ∀ b, b ≠ a → (accounts b).data = (w.accounts b).data) :
    Tracked (w.afterCreate accounts a escrow) := by
  -- The new number is the length of the record, which no older number reaches.
  have hserial : (w.afterCreate accounts a escrow).serial a = w.created.length :=
    Function.update_self ..
  have hserial_ne {b : Pubkey} (hb : b ≠ a) :
      (w.afterCreate accounts a escrow).serial b = w.serial b := Function.update_of_ne hb ..
  have hold {k : ℕ} {e : EscrowAccount} (h : w.created[k]? = some e) :
      (w.created ++ [escrow])[k]? = some e := by
    rw [List.getElem?_append_left (List.getElem?_eq_some_iff.mp h).1]
    exact h
  refine ⟨fun b e hb ↦ ?_, fun b c e e' hb hc heq ↦ ?_, fun s hs ↦ hold (hw.settlement s hs),
    hw.once⟩
  · by_cases hba : b = a
    · subst hba
      obtain rfl : escrow = e := Option.some.inj (hself.symm.trans hb)
      rw [hserial]
      refine ⟨List.getElem?_concat_length, fun hk ↦ ?_⟩
      exact absurd (hw.settled_lt hk) (Nat.lt_irrefl _)
    · rw [hserial_ne hba]
      have hlive := hw.live b e ((hother b hba).symm.trans hb)
      exact ⟨hold hlive.1, hlive.2⟩
  · by_cases hba : b = a
    · by_cases hca : c = a
      · rw [hba, hca]
      · subst hba
        rw [hserial, hserial_ne hca] at heq
        have hlt := hw.serial_lt ((hother c hca).symm.trans hc)
        omega
    · by_cases hca : c = a
      · subst hca
        rw [hserial, hserial_ne hba] at heq
        have hlt := hw.serial_lt ((hother b hba).symm.trans hb)
        omega
      · rw [hserial_ne hba, hserial_ne hca] at heq
        exact hw.distinct b c e e' ((hother b hba).symm.trans hb) ((hother c hca).symm.trans hc) heq

theorem Tracked.afterSettle {w : World} (hw : Tracked w) {accounts : Accounts} {a : Pubkey}
    {escrow : EscrowAccount} {kind : SettlementKind} (hdata : (w.accounts a).data = some escrow)
    (hself : (accounts a).data = none)
    (hother : ∀ b, b ≠ a → (accounts b).data = (w.accounts b).data) :
    Tracked (w.afterSettle accounts a escrow kind) := by
  have hlive := hw.live a escrow hdata
  have hsettled : (w.afterSettle accounts a escrow kind).settled = w.settled ++ [w.serial a] :=
    List.map_append
  have hne {b : Pubkey} {e : EscrowAccount} (hb : (accounts b).data = some e) :
      b ≠ a ∧ (w.accounts b).data = some e := by
    have hba : b ≠ a := by
      rintro rfl
      rw [hself] at hb
      exact absurd hb.symm (Option.some_ne_none _)
    exact ⟨hba, (hother b hba).symm.trans hb⟩
  refine ⟨fun b e hb ↦ ?_, fun b c e e' hb hc heq ↦ ?_, fun s hs ↦ ?_, ?_⟩
  · obtain ⟨hba, hb⟩ := hne hb
    refine ⟨(hw.live b e hb).1, ?_⟩
    rw [hsettled, List.mem_append, List.mem_singleton, not_or]
    exact ⟨(hw.live b e hb).2, fun heq ↦ hba (hw.distinct b a e escrow hb hdata heq)⟩
  · exact hw.distinct b c e e' (hne hb).2 (hne hc).2 heq
  · rcases List.mem_append.mp hs with hs | hs
    · exact hw.settlement s hs
    · rw [List.mem_singleton.mp hs]
      exact hlive.1
  · rw [hsettled]
    exact List.nodup_append.mpr ⟨hw.once, List.nodup_singleton _, fun k hk l hl ↦ by
      rw [List.mem_singleton.mp hl]
      rintro rfl
      exact hlive.2 hk⟩

theorem Tracked.settle {w : World} (hw : Tracked w) {a : Pubkey} {kind : SettlementKind}
    {result : Except ProgramError (Accounts × EscrowEvent)}
    (h : ∀ accounts e, result = .ok (accounts, e) → (accounts a).data = none ∧
      ∀ b, b ≠ a → (accounts b).data = (w.accounts b).data) :
    Tracked (w.settle a kind result) := by
  unfold World.settle
  split
  · next escrow accounts e hdata =>
    obtain ⟨hself, hother⟩ := h accounts e rfl
    exact hw.afterSettle hdata hself hother
  · exact hw

theorem Tracked.step {R : Runtime} {w : World} (hw : Tracked w) (action : Action) :
    Tracked (w.step R action) := by
  cases action with
  | create sender recipient escrowAccount args =>
    rw [World.step]
    split
    · exact hw
    · next accounts e h =>
      obtain ⟨-, hself, hother⟩ := createEscrow_data h
      exact hw.afterCreate hself hother
  | finish => exact hw.settle fun _ _ h ↦ finishEscrow_data h
  | cancel => exact hw.settle fun _ _ h ↦ cancelEscrow_data h
  | transfer source destination lamports =>
    rw [World.step]
    split
    · exact hw
    · next accounts h =>
      have hdata := systemTransfer_data h
      refine ⟨fun a e ha ↦ hw.live a e ((hdata a).symm.trans ha), fun a b e e' ha hb ↦ ?_,
        hw.settlement, hw.once⟩
      exact hw.distinct a b e e' ((hdata a).symm.trans ha) ((hdata b).symm.trans hb)
  | advance slots => exact ⟨hw.live, hw.distinct, hw.settlement, hw.once⟩

/-- In every world a run reaches, what is settled was created, and is settled once. -/
theorem World.tracked (R : Runtime) (lamports : Pubkey → ℕ) (slot : ℕ) (actions : List Action) :
    Tracked ((init lamports slot).run R actions) :=
  run_induction (fun _ action hw ↦ hw.step action) (Tracked.init lamports slot) actions

theorem World.exists_birth (R : Runtime) (lamports : Pubkey → ℕ) (slot : ℕ) (actions : List Action)
    {a : Pubkey} {e : EscrowAccount}
    (h : (((init lamports slot).run R actions).accounts a).data = some e) :
    ∃ n, (births R (init lamports slot) actions)[((init lamports slot).run R actions).serial a]?
      = some (n, e) := by
  have hlive := ((tracked R lamports slot actions).live a e h).1
  have hcreated : ((init lamports slot).run R actions).created
      = (births R (init lamports slot) actions).map Prod.snd := created_run R _ actions
  rw [hcreated, List.getElem?_map, Option.map_eq_some_iff] at hlive
  obtain ⟨⟨n, _⟩, hn, rfl⟩ := hlive
  exact ⟨n, hn⟩

end Zescrow.Solana
