import Zescrow.Core.JournalCodec
import Zescrow.Solana.Program

/-!
# The journal of a Solana escrow

The program writes the journal it expects from the fields of the escrow account, with constant
prefixes and an eight-byte amount behind zeros. The guest writes it from a `PublicCommitment`, with
the lengths it finds and the amount as short as it gets, padded. They write the same bytes, so what
the codec says of its journals holds of reconstructed ones: an account determines the commitment
that releases it, and two accounts have one journal exactly when their terms agree.
-/

open Foundation

namespace Zescrow.Solana

/-- The fields of an escrow account its journal depends on. -/
def EscrowAccount.terms (e : EscrowAccount) : Pubkey × Pubkey × UInt64 × UInt64 × FixedBytes 32 :=
  (e.sender, e.recipient, e.id, e.amount, e.condition)

/-- The commitment a release of the escrow stands for. -/
def EscrowAccount.releaseCommitment (e : EscrowAccount) : PublicCommitment where
  chain := .solana
  agentId := programId.1
  escrowId := e.id
  sender := e.sender.1
  recipient := e.recipient.1
  assetKind := .native
  assetToken := []
  amount := e.amount.toNat
  condition := e.condition
  outcome := .success .conditionsMet

theorem EscrowAccount.encodable_releaseCommitment (e : EscrowAccount) :
    e.releaseCommitment.Encodable where
  amount := e.amount.toNat_lt.trans (by norm_num)
  agentId := programId.2.trans_lt (by norm_num)
  sender := e.sender.2.trans_lt (by norm_num)
  recipient := e.recipient.2.trans_lt (by norm_num)
  assetToken := by norm_num [releaseCommitment]

/-- The program reconstructs the bytes the codec writes for that commitment. -/
theorem reconstructJournal_eq_layout (e : EscrowAccount) :
    reconstructJournal e = e.releaseCommitment.layout := by
  have hamount : toBE (32 - 8 + 8) e.amount.toNat
      = List.replicate (32 - 8) 0 ++ toBE 8 e.amount.toNat :=
    toBE_add (32 - 8) (e.amount.toNat_lt.trans_eq (by norm_num))
  have hprefixed (k : Pubkey) : prefixed k.1 = toBE 2 32 ++ k.1 := by rw [prefixed, k.2]
  have hempty : prefixed [] = toBE 2 0 := rfl
  simp only [PublicCommitment.layout, EscrowAccount.releaseCommitment, hprefixed, hempty,
    reconstructJournal, List.append_assoc, ← hamount]
  rfl

theorem toJournalBytes_releaseCommitment (e : EscrowAccount) :
    e.releaseCommitment.toJournalBytes = .ok (reconstructJournal e) :=
  PublicCommitment.toJournalBytes_iff.mpr
    ⟨e.encodable_releaseCommitment, reconstructJournal_eq_layout e⟩

theorem toJournalBytes_releaseCommitment_iff {e : EscrowAccount} {journal : Bytes} :
    e.releaseCommitment.toJournalBytes = .ok journal ↔ journal = reconstructJournal e := by
  rw [toJournalBytes_releaseCommitment, Except.ok.injEq, eq_comm]

/-- **The program expects the guest's journal.** The journal reconstructed from an account is the
encoding of its release commitment, and of no other commitment. -/
theorem reconstructJournal_canonical (e : EscrowAccount) :
    e.releaseCommitment.toJournalBytes = .ok (reconstructJournal e) ∧
    ∀ c : PublicCommitment, c.toJournalBytes = .ok (reconstructJournal e) →
      c = e.releaseCommitment := by
  have hwritten := toJournalBytes_releaseCommitment e
  exact ⟨hwritten, fun c hc ↦ PublicCommitment.toJournalBytes_inj hc hwritten⟩

/-- Two escrows reconstruct one journal exactly when their terms agree. -/
theorem reconstructJournal_inj {e e' : EscrowAccount} :
    reconstructJournal e = reconstructJournal e' ↔ e.terms = e'.terms := by
  constructor
  · intro h
    have hwritten := toJournalBytes_releaseCommitment e
    rw [h] at hwritten
    have hcommitment : e.releaseCommitment = e'.releaseCommitment :=
      PublicCommitment.toJournalBytes_inj hwritten (toJournalBytes_releaseCommitment e')
    have hsender := Subtype.ext (congrArg PublicCommitment.sender hcommitment)
    have hrecipient := Subtype.ext (congrArg PublicCommitment.recipient hcommitment)
    have hid := congrArg PublicCommitment.escrowId hcommitment
    have hamount := UInt64.toNat_inj.mp (congrArg PublicCommitment.amount hcommitment)
    have hcondition := congrArg PublicCommitment.condition hcommitment
    exact Prod.ext hsender (Prod.ext hrecipient (Prod.ext hid (Prod.ext hamount hcondition)))
  · intro h
    obtain ⟨hsender, h⟩ := Prod.mk.inj h
    obtain ⟨hrecipient, h⟩ := Prod.mk.inj h
    obtain ⟨hid, h⟩ := Prod.mk.inj h
    obtain ⟨hamount, hcondition⟩ := Prod.mk.inj h
    rw [reconstructJournal, reconstructJournal, hsender, hrecipient, hid, hamount, hcondition]

end Zescrow.Solana
