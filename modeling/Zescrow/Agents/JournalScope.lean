import Zescrow.Ethereum.Replay
import Zescrow.Solana.Replay

/-!
# Where a journal counts

There can be any number of deployments of the contract, on any networks, and of the program. The
journal of a release names the chain and the address of the agent, the escrow and the terms it is
released on, but no network. So a journal that has released an escrow is accepted by another
deployment exactly if that has the same address and holds an escrow of the same id on the same
terms; where addresses differ it counts nowhere else, and what is for one chain never counts on the
other.
-/

open Foundation

namespace Zescrow

namespace Ethereum

/-- The terms of a record that its journal holds. The deadlines are not among them. -/
def EscrowDB.terms (r : EscrowDB) : Address × Address × Word × Word :=
  (r.sender, r.recipient, r.amount, r.conditionId)

theorem addressBytes_inj {a b : Address} : addressBytes a = addressBytes b ↔ a = b := by
  have hlt (a : Address) : a.toNat < 256 ^ 20 := a.isLt.trans_eq (by norm_num)
  rw [addressBytes, addressBytes, toBE_inj (hlt a) (hlt b), BitVec.toNat_inj]

theorem releaseCommitment_inj {self self' : Address} {r r' : EscrowDB} {i i' : Word}
    (hi : i.toNat < 2 ^ 64) (hi' : i'.toNat < 2 ^ 64) :
    releaseCommitment self r i = releaseCommitment self' r' i' ↔
      self = self' ∧ i = i' ∧ r.terms = r'.terms := by
  constructor
  · intro h
    have hself := addressBytes_inj.mp (congrArg PublicCommitment.agentId h)
    have hsender := addressBytes_inj.mp (congrArg PublicCommitment.sender h)
    have hrecipient := addressBytes_inj.mp (congrArg PublicCommitment.recipient h)
    have hamount : r.amount = r'.amount :=
      BitVec.eq_of_toNat_eq (congrArg PublicCommitment.amount h)
    have hid : i = i' := by
      have hnat := congrArg UInt64.toNat (congrArg PublicCommitment.escrowId h)
      change (UInt64.ofNat i.toNat).toNat = (UInt64.ofNat i'.toNat).toNat at hnat
      rw [UInt64.toNat_ofNat_of_lt' hi, UInt64.toNat_ofNat_of_lt' hi'] at hnat
      exact BitVec.eq_of_toNat_eq hnat
    have hcondition : r.conditionId = r'.conditionId := by
      have hlt (w : Word) : w.toNat < 256 ^ 32 := w.isLt.trans_eq (by norm_num)
      have hbytes := congrArg Subtype.val (congrArg PublicCommitment.condition h)
      exact BitVec.eq_of_toNat_eq ((toBE_inj (hlt _) (hlt _)).mp hbytes)
    refine ⟨hself, hid, ?_⟩
    rw [EscrowDB.terms, EscrowDB.terms, hsender, hrecipient, hamount, hcondition]
  · rintro ⟨rfl, rfl, hterms⟩
    simp only [EscrowDB.terms, Prod.mk.injEq] at hterms
    obtain ⟨hsender, hrecipient, hamount, hcondition⟩ := hterms
    simp only [releaseCommitment, hsender, hrecipient, hamount, hcondition]

theorem checkJournalBinding_of_accepted {self self' : Address} {r r' : EscrowDB} {i i' : Word}
    {journal : Bytes} (h : checkJournalBinding self r i journal = .ok ()) :
    checkJournalBinding self' r' i' journal = .ok () ↔
      self' = self ∧ i' = i ∧ r'.terms = r.terms := by
  obtain ⟨hi, hjournal⟩ := checkJournalBinding_eq_ok.mp h
  rw [checkJournalBinding_eq_ok]
  constructor
  · rintro ⟨hi', hjournal'⟩
    exact (releaseCommitment_inj hi' hi).mp (PublicCommitment.toJournalBytes_inj hjournal' hjournal)
  · rintro ⟨hself, rfl, hterms⟩
    refine ⟨hi, ?_⟩
    rw [(releaseCommitment_inj hi hi).mpr ⟨hself, rfl, hterms⟩]
    exact hjournal

/-- No account of the Solana program reconstructs a journal that the contract accepts. -/
theorem reconstructJournal_ne_of_accepted {self : Address} {r : EscrowDB} {i : Word}
    {journal : Bytes} (h : checkJournalBinding self r i journal = .ok ())
    (e : Solana.EscrowAccount) : Solana.reconstructJournal e ≠ journal := by
  rintro rfl
  obtain ⟨-, hjournal⟩ := checkJournalBinding_eq_ok.mp h
  have hcommitment := PublicCommitment.toJournalBytes_inj hjournal
    (Solana.toJournalBytes_releaseCommitment e)
  have hchain : Chain.ethereum = Chain.solana := congrArg PublicCommitment.chain hcommitment
  exact absurd hchain (by decide)

end Ethereum

/-! ## All deployments together -/

/-- A deployment of the contract on some network, with what has happened to it. -/
structure EthereumNetwork where
  deployment : Ethereum.Deployment
  forced : ℕ
  block : ℕ
  actions : List Ethereum.Action

namespace EthereumNetwork

variable (n : EthereumNetwork)

def world : Ethereum.World :=
  ((Ethereum.Machine.init n.forced n.block).run n.deployment n.actions).world

/-- The journal has released the conditioned escrow `i`. -/
def Released (i : Ethereum.Word) (journal : Bytes) : Prop :=
  ∃ p ∈ n.world.log, p.settles = some i ∧ p.releaseJournal n.world.storage = some journal

variable {n}

theorem Released.accepted {i : Ethereum.Word} {journal : Bytes} (h : n.Released i journal) :
    ∃ r, (i, r) ∈ Ethereum.creations n.world.log ∧
      Ethereum.checkJournalBinding n.deployment.self r i journal = .ok () := by
  obtain ⟨p, hp, hi, hjournal⟩ := h
  obtain ⟨j, r, hj, hr, -, hcheck⟩ :=
    (Ethereum.Machine.recorded n.deployment n.forced n.block n.actions).release_accepted hp hjournal
  obtain rfl := Option.some.inj (hi.symm.trans hj)
  exact ⟨r, hr, hcheck⟩

end EthereumNetwork

/-- **Where a journal counts.** Take any deployments of the contract, with any runs. A journal that
has released an escrow of one of them is accepted for an escrow created in another exactly if the
two have one address and the escrows one id and the same terms. Where the addresses differ, a
journal therefore releases at most one escrow in all of them together. No account of the Solana
program expects it, on whatever cluster. -/
theorem journal_scope {ι : Type} (networks : ι → EthereumNetwork) :
    (∀ k i journal, (networks k).Released i journal →
      ∃ r, (i, r) ∈ Ethereum.creations (networks k).world.log ∧
        (∀ l j r', (j, r') ∈ Ethereum.creations (networks l).world.log →
          (Ethereum.checkJournalBinding (networks l).deployment.self r' j journal = .ok () ↔
            (networks l).deployment.self = (networks k).deployment.self ∧ j = i ∧
              r'.terms = r.terms)) ∧
        ∀ e, Solana.reconstructJournal e ≠ journal) ∧
    ((∀ k l, (networks k).deployment.self = (networks l).deployment.self → k = l) →
      ∀ k l i j journal, (networks k).Released i journal → (networks l).Released j journal →
        k = l ∧ i = j) := by
  constructor
  · intro k i journal h
    obtain ⟨r, hr, hcheck⟩ := h.accepted
    exact ⟨r, hr, fun l j r' _ ↦ Ethereum.checkJournalBinding_of_accepted hcheck,
      Ethereum.reconstructJournal_ne_of_accepted hcheck⟩
  · intro hdistinct k l i j journal h h'
    obtain ⟨r, -, hcheck⟩ := h.accepted
    obtain ⟨r', -, hcheck'⟩ := h'.accepted
    obtain ⟨hself, hid, -⟩ := (Ethereum.checkJournalBinding_of_accepted hcheck').mp hcheck
    exact ⟨hdistinct k l hself, hid⟩

end Zescrow
