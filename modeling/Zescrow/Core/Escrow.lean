import Zescrow.Core.Identity

/-!
# Assets, escrow parameters and execution

The off-chain escrow context the guest receives: the asset, the two parties, the optional
condition and the execution state. `execute` runs the checks in order and moves a funded escrow to
`conditionsMet`; it is the only place where the state changes.
-/

open Foundation

namespace Zescrow

/-- An unsigned integer of any size. -/
abbrev BigNumber := ℕ

/-- Fungible asset kinds the escrow can settle on-chain. -/
inductive AssetKind where
  | native
  | token
  deriving DecidableEq

/-- An on-chain asset: its kind, its contract or mint when it is a token, its amount in the
smallest unit, and the decimals it is displayed with. -/
structure Asset where
  kind : AssetKind
  agentId : Option ID
  amount : BigNumber
  decimals : Option UInt8
  deriving DecidableEq

/-- Supported blockchain networks. -/
inductive Chain where
  | ethereum
  | solana
  deriving DecidableEq

/-- State of escrow execution. -/
inductive ExecutionState where
  | initialized
  | funded
  | conditionsMet
  deriving DecidableEq

/-- Chain-specific network configuration. -/
structure ChainConfig where
  chain : Chain
  rpcUrl : Str
  senderPrivateId : Str
  agentId : Str

/-- Parameters required to create an escrow on-chain. -/
structure EscrowParams where
  chainConfig : ChainConfig
  asset : Asset
  sender : Party
  recipient : Party
  finishAfter : Option UInt64
  cancelAfter : Option UInt64
  hasConditions : Bool

/-- Metadata returned from on-chain escrow creation. -/
structure EscrowMetadata where
  params : EscrowParams
  state : ExecutionState
  escrowId : Option UInt64

/-- Full escrow context: the locked asset, the participants and the settlement rules. -/
structure Escrow where
  asset : Asset
  recipient : Party
  sender : Party
  condition : Option Condition
  state : ExecutionState

section

variable (K : Crates)

/-! ## Asset validation -/

def Asset.validateNonZeroAmount (a : Asset) : Except EscrowError Unit :=
  ensure (a.amount ≠ 0) (.asset .zeroAmount)

def Asset.validateAgentId (a : Asset) : Except EscrowError Unit :=
  match a.agentId with
  | none => .error (.asset .missingId)
  | some id => id.validate K

def Asset.validateByKind (a : Asset) : Except EscrowError Unit :=
  match a.kind with
  | .native => .ok ()
  | .token => a.validateAgentId K

/-- Ensure asset parameters are semantically valid. -/
def Asset.validate (a : Asset) : Except EscrowError Unit := do
  a.validateNonZeroAmount
  a.validateByKind K

/-! ## Execution -/

def Escrow.validateState (e : Escrow) : Except EscrowError Unit :=
  ensure (e.state = .funded) .invalidState

def Escrow.validateParties (e : Escrow) : Except EscrowError Unit := do
  e.sender.verifyIdentity K
  e.recipient.verifyIdentity K

def Escrow.verifyConditions (e : Escrow) : Except EscrowError Unit :=
  match e.condition with
  | none => .ok ()
  | some cond => cond.verify K

/-- Attempts to execute (release) the escrow. The second component is the escrow afterwards. -/
def Escrow.execute (e : Escrow) : Except EscrowError ExecutionState × Escrow :=
  let checks : Except EscrowError Unit := do
    e.validateState
    e.validateParties K
    e.asset.validate K
    e.verifyConditions K
  match checks with
  | .ok () => (.ok .conditionsMet, { e with state := .conditionsMet })
  | .error err => (.error err, e)

end

theorem Escrow.validateParties_eq_ok {K : Crates} {e : Escrow} :
    e.validateParties K = .ok () ↔
      (∃ b, e.sender.toBytes K = .ok b ∧ b ≠ []) ∧ ∃ b, e.recipient.toBytes K = .ok b ∧ b ≠ [] := by
  rw [validateParties, bind_eq_ok]
  constructor
  · rintro ⟨_, hsender, hrecipient⟩
    exact ⟨ID.validate_eq_ok.mp hsender, ID.validate_eq_ok.mp hrecipient⟩
  · rintro ⟨hsender, hrecipient⟩
    exact ⟨(), ID.validate_eq_ok.mpr hsender, ID.validate_eq_ok.mpr hrecipient⟩

theorem Asset.validate_eq_ok {K : Crates} {a : Asset} : a.validate K = .ok () ↔
    a.amount ≠ 0 ∧ (a.kind = .token →
      ∃ id b, a.agentId = some id ∧ id.toBytes K = .ok b ∧ b ≠ []) := by
  rw [validate, validateNonZeroAmount, ensure_bind_eq_ok, validateByKind]
  refine and_congr_right' ?_
  cases hkind : a.kind with
  | native => simp
  | token =>
    rw [validateAgentId]
    cases hid : a.agentId with
    | none => simp
    | some id => simp [ID.validate_eq_ok]

theorem Escrow.verifyConditions_eq_ok {K : Crates} {e : Escrow} :
    e.verifyConditions K = .ok () ↔ ∀ c, e.condition = some c → c.Satisfied K := by
  rw [verifyConditions]
  cases e.condition <;> simp [Condition.Satisfied]

theorem Escrow.execute_eq_ok {K : Crates} {e e' : Escrow} {s : ExecutionState}
    (h : e.execute K = (.ok s, e')) : s = .conditionsMet ∧
      e' = { e with state := .conditionsMet } ∧ e.state = .funded ∧
      e.validateParties K = .ok () ∧ e.asset.validate K = .ok () ∧
      ∀ c, e.condition = some c → c.Satisfied K := by
  rw [execute] at h
  split at h
  · next hchecks =>
    obtain ⟨hs, he⟩ := Prod.mk.inj h
    simp only [validateState, ensure_bind_eq_ok] at hchecks
    obtain ⟨hstate, hrest⟩ := hchecks
    obtain ⟨_, hparties, hrest⟩ := bind_eq_ok.mp hrest
    obtain ⟨_, hasset, hcond⟩ := bind_eq_ok.mp hrest
    obtain rfl := Except.ok.inj hs
    exact ⟨rfl, he.symm, hstate, hparties, hasset, verifyConditions_eq_ok.mp hcond⟩
  · exact absurd (Prod.mk.inj h).1 error_ne_ok

theorem Escrow.execute_of_checks {K : Crates} {e : Escrow} (hstate : e.state = .funded)
    (hparties : e.validateParties K = .ok ()) (hasset : e.asset.validate K = .ok ())
    (hcond : ∀ c, e.condition = some c → c.Satisfied K) :
    e.execute K = (.ok .conditionsMet, { e with state := .conditionsMet }) := by
  have hverify := verifyConditions_eq_ok.mpr hcond
  have hvalid : e.validateState = .ok () := ensure_eq_ok.mpr hstate
  simp only [execute, hvalid, hparties, hasset, hverify, ok_bind]

theorem Escrow.execute_eq_error {K : Crates} {e e' : Escrow} {err : EscrowError}
    (h : e.execute K = (.error err, e')) : e' = e := by
  rw [execute] at h
  split at h
  · exact absurd (Prod.mk.inj h).1 ok_ne_error
  · exact (Prod.mk.inj h).2.symm

theorem Escrow.execute_snd (K : Crates) (e : Escrow) :
    (e.execute K).2 = { e with state := (e.execute K).2.state } := by
  rw [execute]
  split <;> rfl

end Zescrow
