import Zescrow.Ethereum.JournalBinding
import Zescrow.Ethereum.Lifecycle

/-!
# No journal releases twice

A journal that the contract accepts names an escrow by eight bytes of its id. The check refuses ids
that do not fit them, so the journal determines the id; ids are issued once, and an escrow is
settled once and for all. Hence a journal that has released an escrow releases nothing any more.
-/

open Foundation

namespace Zescrow.Ethereum

/-- The journal by which an entry released a conditioned escrow, if it did. The condition of an
escrow is read from `s`; it is the one of creation. -/
def Entry.releaseJournal (s : Storage) (e : Entry) : Option Bytes :=
  match e.call with
  | .finishEscrow escrowId _ journal =>
    if (s.escrows escrowId).conditionId ≠ 0 then some journal else none
  | .createEscrow .. | .cancelEscrow .. => none

theorem Entry.releaseJournal_eq_some {s : Storage} {e : Entry} {journal : Bytes} :
    e.releaseJournal s = some journal ↔ ∃ i receiptSeal,
      e.call = .finishEscrow i receiptSeal journal ∧ (s.escrows i).conditionId ≠ 0 := by
  obtain ⟨msg, call, event, transfer⟩ := e
  cases call with
  | finishEscrow i receiptSeal journal' =>
    simp only [releaseJournal, Option.ite_none_right_eq_some, Option.some.injEq,
      Call.finishEscrow.injEq]
    constructor
    · rintro ⟨hne, rfl⟩
      exact ⟨i, receiptSeal, ⟨rfl, rfl, rfl⟩, hne⟩
    · rintro ⟨i', _, ⟨rfl, rfl, rfl⟩, hne⟩
      exact ⟨hne, rfl⟩
  | createEscrow | cancelEscrow => simp [releaseJournal]

/-- A journal names one escrow. -/
theorem checkJournalBinding_inj {self : Address} {r r' : EscrowDB} {i i' : Word} {journal : Bytes}
    (h : checkJournalBinding self r i journal = .ok ())
    (h' : checkJournalBinding self r' i' journal = .ok ()) : i = i' := by
  obtain ⟨hi, hjournal⟩ := checkJournalBinding_eq_ok.mp h
  obtain ⟨hi', hjournal'⟩ := checkJournalBinding_eq_ok.mp h'
  have hid : UInt64.ofNat i.toNat = UInt64.ofNat i'.toNat :=
    congrArg PublicCommitment.escrowId (PublicCommitment.toJournalBytes_inj hjournal hjournal')
  have hnat := congrArg UInt64.toNat hid
  rw [UInt64.toNat_ofNat_of_lt' hi, UInt64.toNat_ofNat_of_lt' hi'] at hnat
  exact BitVec.eq_of_toNat_eq hnat

theorem Recorded.release_accepted {D : Deployment} {s : Storage} {log : List Entry} {p : Entry}
    {journal : Bytes} (hs : Recorded D s log) (hp : p ∈ log)
    (hjournal : p.releaseJournal s = some journal) :
    ∃ i r, p.settles = some i ∧ (i, r) ∈ creations log ∧ s.escrows i = r.settle ∧
      checkJournalBinding D.self r i journal = .ok () := by
  obtain ⟨i, receiptSeal, hcall, hne⟩ := Entry.releaseJournal_eq_some.mp hjournal
  obtain ⟨r, hr, hnow, hallowed⟩ := hs.release_allowed hp hcall
  rw [hnow] at hne
  refine ⟨i, r, ?_, hr, hnow, (hallowed.proof hne).1⟩
  rw [Entry.settles, hcall]

/-- No escrow is settled twice. -/
theorem Recorded.nodup_settles {D : Deployment} {s : Storage} {log : List Entry}
    (hs : Recorded D s log) : (log.filterMap Entry.settles).Nodup := by
  rw [List.nodup_iff_count_le_one]
  intro i
  have hcount : (log.filterMap Entry.settles).count i = (payouts i log).length := by
    simp only [List.count_filterMap, List.countP_eq_length_filter, payouts, beq_eq_decide]
  rw [hcount]
  by_cases hi : s.Issued i
  · obtain ⟨r, hr⟩ := hs.exists_creation hi
    exact (hs.lives i r hr).paid_once.1
  · rw [hs.unpaid i hi]
    exact Nat.zero_le 1

theorem Recorded.nodup_releaseJournals {D : Deployment} {s : Storage} {log : List Entry}
    (hs : Recorded D s log) : (log.filterMap (Entry.releaseJournal s)).Nodup := by
  have hsettles := hs.nodup_settles
  rw [List.Nodup, List.pairwise_filterMap] at hsettles ⊢
  refine hsettles.imp_of_mem fun {p q} hp hq hpq journal hj journal' hj' heq ↦ ?_
  subst heq
  -- One journal, so one escrow; but no escrow is settled by two entries.
  obtain ⟨i, r, hi, -, -, hcheck⟩ := hs.release_accepted hp hj
  obtain ⟨i', r', hi', -, -, hcheck'⟩ := hs.release_accepted hq hj'
  exact hpq i hi i' hi' (checkJournalBinding_inj hcheck hcheck')

/-- A journal that has released an escrow is refused by every conditioned escrow. -/
theorem Recorded.refuses_released {D : Deployment} {s : Storage} {log : List Entry} {p : Entry}
    {journal : Bytes} (hs : Recorded D s log) (hp : p ∈ log)
    (hjournal : p.releaseJournal s = some journal) (msg : Msg) {i : Word} (receiptSeal : Bytes)
    (hi : (s.escrows i).conditionId ≠ 0) :
    ∃ e, beginFinish D msg i receiptSeal journal s = .error e := by
  obtain ⟨j, r, -, -, hnow, hcheck⟩ := hs.release_accepted hp hjournal
  cases hres : beginFinish D msg i receiptSeal journal s with
  | error e => exact ⟨e, rfl⟩
  | ok res =>
    obtain ⟨s', e, t⟩ := res
    obtain ⟨-, -, hallowed, -⟩ := beginFinish_eq_ok.mp hres
    -- It would be accepted by the escrow it released before, which is settled.
    obtain rfl := checkJournalBinding_inj (hallowed.proof hi).1 hcheck
    have hunsettled := hallowed.unsettled
    rw [hnow, EscrowDB.settle] at hunsettled
    exact absurd hunsettled.symm Bool.false_ne_true

/-- **No replay.** In every state a run reaches the journals by which conditioned escrows were
released are all different: each was accepted for the escrow it released, and none of them is
accepted again, for that escrow or any other. -/
theorem Machine.no_replay (D : Deployment) (forced block : ℕ) (actions : List Action) :
    let w := ((init forced block).run D actions).world
    (w.log.filterMap (Entry.releaseJournal w.storage)).Nodup ∧
    ∀ p ∈ w.log, ∀ journal, p.releaseJournal w.storage = some journal →
      (∃ i r, p.settles = some i ∧ (i, r) ∈ creations w.log ∧
        checkJournalBinding D.self r i journal = .ok ()) ∧
      ∀ msg i receiptSeal, (w.storage.escrows i).conditionId ≠ 0 →
        ∃ e, beginFinish D msg i receiptSeal journal w.storage = .error e := by
  intro w
  have hrec := recorded D forced block actions
  refine ⟨hrec.nodup_releaseJournals, fun p hp journal hjournal ↦ ⟨?_, ?_⟩⟩
  · obtain ⟨i, r, hi, hr, -, hcheck⟩ := hrec.release_accepted hp hjournal
    exact ⟨i, r, hi, hr, hcheck⟩
  · intro msg i receiptSeal hi
    exact hrec.refuses_released hp hjournal msg receiptSeal hi

end Zescrow.Ethereum
