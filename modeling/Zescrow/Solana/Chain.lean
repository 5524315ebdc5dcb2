import Zescrow.Foundation.Simulation
import Zescrow.Solana.Instructions
import Zescrow.Solana.Rent

/-!
# The chain the program runs on

Anyone may submit transactions, with any instructions in them: any accounts, any flags for which
there are signatures, any data. A transaction takes effect as a whole or not at all, also when it
would leave an account short of its rent, and what the program emits is appended to a log. Nothing
here knows of escrows that were created or settled; it is what a client of the chain can see. The
fees of transactions and the limits on their size are left out.

The runs that everything else is proved about are lists of calls of the handlers. They are what all
this amounts to: a history of the chain is matched by such a run, and its log holds the creations
and the settlements of that run. So no instruction, however it is put together, does more than the
handlers do when they are called as they are meant to.
-/

open Foundation

namespace Zescrow.Solana

/-- What a transaction is made of: instructions to the program, and lamports that move outside of
it. -/
inductive Operation where
  | invoke (ix : Instruction) (moment : ℕ)
  | transfer (source destination : Pubkey) (lamports : ℕ)

/-- The accounts an operation may write to. -/
def Operation.writable : Operation → List Pubkey
  | .invoke ix _ => (ix.accounts.filter (·.isWritable)).map AccountMeta.pubkey
  | .transfer source destination _ => [source, destination]

/-- What happens on the chain. -/
inductive Occurrence where
  | transaction (operations : List Operation)
  /-- Slots pass. -/
  | advance (slots : ℕ)

/-- The accounts, the slot, and the events emitted so far. -/
structure Chain where
  accounts : Accounts
  slot : ℕ
  events : List EscrowEvent

namespace Chain

def init (lamports : Pubkey → ℕ) (slot : ℕ) : Chain where
  accounts a := ⟨lamports a, none⟩
  slot := slot
  events := []

/-- One operation of a transaction. -/
def perform (R : Runtime) (c : Chain) : Operation → Except InstructionError Chain
  | .invoke ix moment => do
    let (accounts, event) ← process R c.slot moment ix c.accounts
    .ok { c with accounts := accounts, events := c.events ++ [event] }
  | .transfer source destination lamports => do
    let accounts ← (systemTransfer source destination lamports c.accounts).mapError .program
    .ok { c with accounts := accounts }

/-- The rent of every account that operations may write to is in order after them. -/
def rentChecked (R : Runtime) (operations : List Operation) (before after : Chain) : Bool :=
  (operations.flatMap Operation.writable).all fun a ↦
    R.rentAllowed (before.accounts a) (after.accounts a)

def step (R : Runtime) (c : Chain) : Occurrence → Chain
  | .transaction operations => transact (perform R) (rentChecked R) c operations
  | .advance slots => { c with slot := c.slot + slots }

abbrev run (R : Runtime) (c : Chain) (history : List Occurrence) : Chain :=
  Foundation.run (step R) c history

end Chain

/-! ## What a transaction may write to -/

section

variable {R : Runtime} {slot moment : ℕ} {accounts accounts' : Accounts} {e : EscrowEvent}

theorem systemTransfer_frame {source destination b : Pubkey} {n : ℕ}
    (h : systemTransfer source destination n accounts = .ok accounts') (hs : b ≠ source)
    (hd : b ≠ destination) : accounts' b = accounts b := by
  obtain ⟨-, -, -, rfl⟩ := systemTransfer_eq_ok.mp h
  rw [Accounts.transferred, Accounts.setLamports, Function.update_of_ne hd, Accounts.setLamports,
    Function.update_of_ne hs]

theorem closeAccount_frame {a destination b : Pubkey}
    (h : closeAccount a destination accounts = .ok accounts') (ha : b ≠ a) (hd : b ≠ destination) :
    accounts' b = accounts b := by
  obtain ⟨-, rfl⟩ := closeAccount_eq_ok.mp h
  rw [Accounts.closed, Accounts.setData, Function.update_of_ne ha, Accounts.setLamports,
    Function.update_of_ne ha, Accounts.setLamports, Function.update_of_ne hd]

/-- An instruction changes only accounts that it names as writable. -/
theorem process_frame {ix : Instruction}
    (h : process R slot moment ix accounts = .ok (accounts', e)) {b : Pubkey}
    (hb : b ∉ (Operation.invoke ix moment).writable) : accounts' b = accounts b := by
  have hne (key : Pubkey) (signs : Bool) (hm : ⟨key, signs, true⟩ ∈ ix.accounts) : b ≠ key := by
    rintro rfl
    exact hb (List.mem_map_of_mem (List.mem_filter.mpr ⟨hm, rfl⟩))
  obtain ⟨-, -, i, -, -, -, -, hcall⟩ := process_eq_ok.mp h
  cases i with
  | createEscrow args =>
    obtain ⟨ctx, hctx, hcreate⟩ := bind_eq_ok.mp hcall
    obtain ⟨_, _, accountSigns, _, _, _, hmetas⟩ := CreateEscrow.tryAccounts_eq_ok.mp hctx
    obtain ⟨-, -, -, -, -, _, _, hinit, hfund, rfl, -⟩ :=
      createEscrow_eq_ok.mp (mapError_eq_ok.mp hcreate)
    have hsender : b ≠ ctx.sender := hne _ true (by rw [hmetas]; simp)
    have haccount : b ≠ ctx.escrowAccount := hne _ accountSigns (by rw [hmetas]; simp)
    rw [Accounts.setData, Function.update_of_ne haccount,
      systemTransfer_frame hfund hsender haccount, systemTransfer_frame hinit hsender haccount]
  | finishEscrow receiptSeal =>
    obtain ⟨ctx, hctx, hfinish⟩ := bind_eq_ok.mp hcall
    obtain ⟨senderSigns, accountSigns, _, _, hmetas⟩ := FinishEscrow.tryAccounts_eq_ok.mp hctx
    obtain ⟨escrow, -, -, -, -, hclose, -⟩ := finishEscrow_eq_ok.mp (mapError_eq_ok.mp hfinish)
    have hrecipient : b ≠ ctx.recipient := hne _ true (by rw [hmetas]; simp)
    have hsender : b ≠ ctx.sender := hne _ senderSigns (by rw [hmetas]; simp)
    have haccount : b ≠ ctx.escrowAccount := hne _ accountSigns (by rw [hmetas]; simp)
    rw [closeAccount_frame hclose haccount hsender, Accounts.released, Accounts.setLamports,
      Function.update_of_ne hrecipient, Accounts.setLamports, Function.update_of_ne haccount]
  | cancelEscrow =>
    obtain ⟨ctx, hctx, hcancel⟩ := bind_eq_ok.mp hcall
    obtain ⟨accountSigns, _, hmetas⟩ := CancelEscrow.tryAccounts_eq_ok.mp hctx
    obtain ⟨escrow, -, -, hclose, -⟩ := cancelEscrow_eq_ok.mp (mapError_eq_ok.mp hcancel)
    have hsender : b ≠ ctx.sender := hne _ true (by rw [hmetas]; simp)
    have haccount : b ≠ ctx.escrowAccount := hne _ accountSigns (by rw [hmetas]; simp)
    exact closeAccount_frame hclose haccount hsender

theorem Chain.perform_frame {c c' : Chain} {operation : Operation}
    (h : c.perform R operation = .ok c') {b : Pubkey} (hb : b ∉ operation.writable) :
    c'.accounts b = c.accounts b := by
  cases operation with
  | invoke ix moment =>
    obtain ⟨⟨accounts, e⟩, hprocess, h⟩ := bind_eq_ok.mp h
    obtain rfl := Except.ok.inj h
    exact process_frame hprocess hb
  | transfer source destination lamports =>
    obtain ⟨accounts, htransfer, h⟩ := bind_eq_ok.mp h
    obtain rfl := Except.ok.inj h
    rw [Operation.writable, List.mem_cons, List.mem_singleton, not_or] at hb
    exact systemTransfer_frame (mapError_eq_ok.mp htransfer) hb.1 hb.2

/-- What is checked of the accounts written to holds of all accounts. -/
theorem Chain.rentChecked_iff {c c' : Chain} {operations : List Operation}
    (h : attempt (perform R) c operations = .ok c') :
    rentChecked R operations c c' = true ↔ R.Permits c.accounts c'.accounts := by
  rw [rentChecked, List.all_eq_true]
  refine ⟨fun hchecked b ↦ ?_, fun hpermits b _ ↦ hpermits b⟩
  by_cases hb : b ∈ operations.flatMap Operation.writable
  · exact hchecked b hb
  · have hsame : c'.accounts b = c.accounts b :=
      attempt_keeps (p := fun c ↦ c.accounts b) (fun operation ho _ _ hok ↦
        perform_frame hok fun hw ↦ hb (List.mem_flatMap.mpr ⟨operation, ho, hw⟩)) h
    rw [hsame]
    exact Runtime.rentAllowed_self _

theorem Chain.step_transaction {c c' : Chain} {operations : List Operation}
    (h : attempt (perform R) c operations = .ok c') (hpermits : R.Permits c.accounts c'.accounts) :
    c.step R (.transaction operations) = c' := by
  have hchecked := (rentChecked_iff h).mpr hpermits
  simp only [step, transact, h, hchecked, if_true]

end

/-! ## Histories and runs -/

/-- The event of a settlement. -/
def Settlement.event (s : Settlement) : EscrowEvent :=
  s.escrow.event <| match s.kind with
    | .released _ => .finished
    | .refunded => .cancelled

def EscrowEvent.isCreation (e : EscrowEvent) : Bool := e.action = .created

/-- The accounts and the slot are those of the world, and the log holds what was created and what
was settled in it, each in order. -/
structure Chain.Shows (c : Chain) (w : World) : Prop where
  accounts : c.accounts = w.accounts
  slot : c.slot = w.slot
  created : c.events.filter (·.isCreation) = w.created.map (·.event .created)
  settled : c.events.filter (!·.isCreation) = w.settlements.map Settlement.event

variable {R : Runtime} {c : Chain} {w : World} {accounts : Accounts} {e : EscrowEvent}

theorem Chain.shows_init (lamports : Pubkey → ℕ) (slot : ℕ) :
    (init lamports slot).Shows (.init lamports slot) := ⟨rfl, rfl, rfl, rfl⟩

theorem Chain.Shows.create (hs : c.Shows w) {sender recipient a : Pubkey} {args : CreateEscrowArgs}
    (h : createEscrow R sender recipient a args w.accounts = .ok (accounts, e)) :
    Shows { c with accounts := accounts, events := c.events ++ [e] }
      (w.step R (.create sender recipient a args)) := by
  obtain ⟨-, -, -, -, -, -, -, -, -, -, rfl⟩ := createEscrow_eq_ok.mp h
  rw [World.step, h]
  refine ⟨rfl, hs.slot, ?_, ?_⟩
  · change _ = List.map _ (w.created ++ [_])
    rw [List.filter_append, hs.created, List.map_append]
    rfl
  · rw [List.filter_append, hs.settled]
    exact List.append_nil _

theorem Chain.Shows.settle (hs : c.Shows w) {a : Pubkey} {kind : SettlementKind}
    {escrow : EscrowAccount} (hdata : (w.accounts a).data = some escrow)
    (he : e = (⟨w.serial a, escrow, kind⟩ : Settlement).event) :
    Shows { c with accounts := accounts, events := c.events ++ [e] }
      (w.settle a kind (.ok (accounts, e))) := by
  have hcreation : e.isCreation = false := by
    rw [he]
    cases kind <;> rfl
  rw [settle_eq_ok hdata]
  refine ⟨rfl, hs.slot, ?_, ?_⟩
  · rw [List.filter_append, hs.created, List.filter_singleton, hcreation]
    exact List.append_nil _
  · change _ = List.map _ (w.settlements ++ [_])
    rw [List.filter_append, hs.settled, List.filter_singleton, hcreation, he, List.map_append]
    rfl

theorem Chain.Shows.finish (hs : c.Shows w) {recipient sender a verifierRouter : Pubkey}
    {remaining : List AccountMeta} {receiptSeal : Bytes} {moment : ℕ}
    (h : finishEscrow R w.slot moment recipient sender a verifierRouter remaining receiptSeal
      w.accounts = .ok (accounts, e)) :
    Shows { c with accounts := accounts, events := c.events ++ [e] }
      (w.step R (.finish recipient sender a verifierRouter remaining receiptSeal moment)) := by
  obtain ⟨escrow, hdata, -, -, -, -, he⟩ := finishEscrow_eq_ok.mp h
  rw [World.step, h]
  exact hs.settle hdata he

theorem Chain.Shows.cancel (hs : c.Shows w) {sender a : Pubkey}
    (h : cancelEscrow R w.slot sender a w.accounts = .ok (accounts, e)) :
    Shows { c with accounts := accounts, events := c.events ++ [e] }
      (w.step R (.cancel sender a)) := by
  obtain ⟨escrow, hdata, -, -, he⟩ := cancelEscrow_eq_ok.mp h
  rw [World.step, h]
  exact hs.settle hdata he

theorem Chain.Shows.transfer (hs : c.Shows w) {source destination : Pubkey} {n : ℕ}
    (h : systemTransfer source destination n w.accounts = .ok accounts) :
    Shows { c with accounts := accounts } (w.step R (.transfer source destination n)) := by
  rw [World.step, h]
  exact ⟨rfl, hs.slot, hs.created, hs.settled⟩

theorem Chain.Shows.advance (hs : c.Shows w) (slots : ℕ) :
    Shows { c with slot := c.slot + slots } (w.step R (.advance slots)) :=
  ⟨hs.accounts, congrArg (· + slots) hs.slot, hs.created, hs.settled⟩

theorem Chain.exists_run_of_perform (hs : c.Shows w) {operation : Operation} {c' : Chain}
    (h : c.perform R operation = .ok c') :
    ∃ actions, (∀ action ∈ actions, True) ∧ c'.Shows (w.run R actions) := by
  cases operation with
  | invoke ix moment =>
    obtain ⟨⟨accounts, e⟩, hprocess, h⟩ := bind_eq_ok.mp h
    obtain rfl := Except.ok.inj h
    rw [hs.accounts, hs.slot] at hprocess
    rcases process_cases hprocess with ⟨sender, recipient, a, args, hcreate⟩ |
      ⟨recipient, sender, a, verifierRouter, remaining, receiptSeal, hfinish⟩ |
      ⟨sender, a, hcancel⟩
    · exact ⟨[.create sender recipient a args], fun _ _ ↦ trivial, hs.create hcreate⟩
    · exact ⟨[.finish recipient sender a verifierRouter remaining receiptSeal moment],
        fun _ _ ↦ trivial, hs.finish hfinish⟩
    · exact ⟨[.cancel sender a], fun _ _ ↦ trivial, hs.cancel hcancel⟩
  | transfer source destination lamports =>
    obtain ⟨accounts, htransfer, h⟩ := bind_eq_ok.mp h
    obtain rfl := Except.ok.inj h
    rw [hs.accounts, mapError_eq_ok] at htransfer
    exact ⟨[.transfer source destination lamports], fun _ _ ↦ trivial,
      hs.transfer (R := R) htransfer⟩

theorem Chain.simulates (R : Runtime) :
    Simulates Chain.Shows (Chain.step R) (World.step R) (fun _ _ ↦ True) fun _ ↦ True := by
  have htransact : Simulates Chain.Shows (transact (perform R) (rentChecked R)) (World.step R)
      (fun _ _ ↦ True) fun _ ↦ True :=
    simulates_transact fun _ _ _ _ hs h ↦ exists_run_of_perform hs h
  intro c w occurrence hs _
  cases occurrence with
  | transaction operations => exact htransact c w operations hs trivial
  | advance slots => exact ⟨[.advance slots], fun _ _ ↦ trivial, hs.advance (R := R) slots⟩

/-! ## What a log can hold -/

/-- What an event is about. -/
def EscrowEvent.subject (e : EscrowEvent) : UInt64 × Pubkey × Pubkey × UInt64 :=
  (e.id, e.sender, e.recipient, e.amount)

/-- What was settled was created, at least as often. -/
theorem Tracked.subperm {w : World} (hw : Tracked w) :
    (w.settlements.map Settlement.escrow).Subperm w.created := by
  have hlookup : w.settled.map (fun k ↦ w.created[k]?) =
      (w.settlements.map Settlement.escrow).map some := by
    rw [World.settled, List.map_map, List.map_map]
    exact List.map_congr_left fun s hs ↦ hw.settlement s hs
  have hrange : (List.range w.created.length).map (fun k ↦ w.created[k]?) =
      w.created.map some := by
    refine List.ext_getElem (by simp) fun k _ _ ↦ ?_
    simp
  obtain ⟨l, hperm, hsub⟩ : w.settled.Subperm (List.range w.created.length) :=
    List.subperm_of_subset hw.once fun k hk ↦ List.mem_range.mpr (hw.settled_lt hk)
  rw [← List.map_subperm_map_iff (Option.some_injective _), ← hlookup, ← hrange]
  exact ⟨l.map _, hperm.map _, hsub.map _⟩

theorem Chain.Shows.subperm (hs : c.Shows w) (hw : Tracked w) :
    ((c.events.filter (!·.isCreation)).map EscrowEvent.subject).Subperm
      ((c.events.filter (·.isCreation)).map EscrowEvent.subject) := by
  have hsubject : w.settlements.map (EscrowEvent.subject ∘ Settlement.event) =
      (w.settlements.map Settlement.escrow).map fun e ↦ (e.event .created).subject := by
    rw [List.map_map]
    rfl
  rw [hs.created, hs.settled, List.map_map, List.map_map, hsubject]
  obtain ⟨l, hperm, hsub⟩ := hw.subperm
  exact ⟨l.map _, hperm.map _, hsub.map _⟩

/-- **No submission does more than the handlers.** Whatever transactions are submitted, the chain is
one that some run of the handlers leads to, and its log is that of the run. No lamport is made or
lost, and for no id, parties and amount does the log hold more settlements than creations. -/
theorem Chain.history_sound (R : Runtime) (lamports : Pubkey → ℕ) (slot : ℕ)
    (history : List Occurrence) :
    let c := (init lamports slot).run R history
    (∃ actions, c.Shows ((World.init lamports slot).run R actions)) ∧
      Ledger.total c.accounts.lamports = Ledger.total lamports ∧
      ((c.events.filter (!·.isCreation)).map EscrowEvent.subject).Subperm
        ((c.events.filter (·.isCreation)).map EscrowEvent.subject) := by
  intro c
  obtain ⟨actions, -, hs⟩ : ∃ actions, (∀ action ∈ actions, True) ∧
      c.Shows ((World.init lamports slot).run R actions) :=
    (simulates R).exists_run (shows_init lamports slot) (along_of_forall (fun _ _ ↦ trivial) _ _)
  refine ⟨⟨actions, hs⟩, ?_, hs.subperm (World.tracked R lamports slot actions)⟩
  rw [hs.accounts]
  exact (World.conserved R lamports slot actions).total

end Zescrow.Solana
