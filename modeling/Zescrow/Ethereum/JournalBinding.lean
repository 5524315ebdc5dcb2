import Zescrow.Core.JournalCodec
import Zescrow.Ethereum.Contract

/-!
# The journal check accepts what the encoder writes

`_checkJournalBinding` reads its offsets from the calldata it checks, so each reader is exact only
at offsets from which the next one does not overflow. The layout is of fixed length, which keeps
every offset it reaches small, and the two judgements below, on what is accepted and on how it
fails, are carried along it together.
-/

open Foundation Parser

namespace Zescrow.Ethereum

/-! ## The readers -/

/-- Shifting a byte into an accumulator is reading one more digit. -/
theorem shiftLeft_or_byte {w : ℕ} (n : ℕ) (b : UInt8) :
    (BitVec.ofNat w n <<< 8) ||| BitVec.ofNat w b.toNat = BitVec.ofNat w (n * 256 + b.toNat) := by
  have hb : b.toNat < 2 ^ 8 := b.toNat_lt
  have hdisj : (BitVec.ofNat w n <<< 8) &&& BitVec.ofNat w b.toNat = 0#w := by
    refine BitVec.eq_of_getLsbD_eq fun i _ ↦ ?_
    rw [BitVec.getLsbD_and, BitVec.getLsbD_shiftLeft, BitVec.getLsbD_zero]
    by_cases h : i < 8
    · rw [decide_eq_true h, Bool.not_true, Bool.and_false, Bool.false_and, Bool.false_and]
    · have hbit : b.toNat.testBit i = false :=
        Nat.testBit_lt_two_pow (hb.trans_le (Nat.pow_le_pow_right (by norm_num) (by omega)))
      simp only [BitVec.getLsbD_ofNat, hbit, Bool.and_false]
  rw [← BitVec.add_eq_or_of_and_eq_zero _ _ hdisj, BitVec.ofNat_add]
  congr 1
  rw [← BitVec.toNat_inj, BitVec.toNat_shiftLeft, BitVec.toNat_ofNat, BitVec.toNat_ofNat,
    Nat.shiftLeft_eq, Nat.mod_mul_mod]

/-- The loop appends the bytes it passes to those already in the accumulator. -/
theorem accumulate_eq {w : ℕ} (rest : Bytes) :
    ∀ (b pre done : Bytes), accumulate (pre ++ (b ++ rest)) pre.length b.length
      (BitVec.ofNat w (ofBE done)) = .ok (BitVec.ofNat w (ofBE (done ++ b))) := by
  intro b
  induction b with
  | nil =>
    intro pre done
    rw [List.append_nil]
    rfl
  | cons x b ih =>
    intro pre done
    have hget : (pre ++ (x :: b ++ rest))[pre.length]? = some x := by simp
    -- The byte read joins what was read; the induction goes on behind it.
    rw [List.length_cons, accumulate, hget]
    change accumulate _ _ _ (_ ||| _) = _
    have h := ih (pre ++ [x]) (done ++ [x])
    rw [List.append_assoc, List.length_append, List.length_singleton, List.append_assoc,
      List.singleton_append, List.singleton_append, ofBE_snoc] at h
    rw [shiftLeft_or_byte]
    exact h

theorem accumulate_of_length {w n : ℕ} {b : Bytes} (pre rest : Bytes) (hb : b.length = n) :
    accumulate (pre ++ (b ++ rest)) pre.length n (0 : BitVec w)
      = .ok (BitVec.ofNat w (ofBE b)) := by
  have h := accumulate_eq (w := w) rest b pre []
  rwa [hb] at h

/-- A reader is exact where its bounds check does not overflow. -/
theorem exactAt_readUint {i w n : ℕ} (hw : 8 * n ≤ w) (hi : i + n < 2 ^ 256) :
    ExactAt i (readUint w n) fun v b ↦ v.toNat < 256 ^ n ∧ b = toBE n v.toNat := by
  have hpow : 256 ^ n ≤ 2 ^ w := by
    calc 256 ^ n = 2 ^ (8 * n) := by rw [pow_mul]; norm_num
      _ ≤ 2 ^ w := Nat.pow_le_pow_right (by norm_num) hw
  rintro pre s rfl v c
  simp only [readUint, bind_eq_ok, checkedAdd_eq_ok, ensure_eq_ok, List.length_append]
  constructor
  · rintro ⟨_, ⟨-, rfl⟩, -, hn, r, hr, hres⟩
    obtain ⟨rfl, rfl⟩ := Prod.mk.inj (Except.ok.inj hres)
    have hlen : (s.take n).length = n := List.length_take_of_le (by omega)
    rw [← List.take_append_drop n s, accumulate_of_length _ _ hlen] at hr
    obtain rfl := Except.ok.inj hr
    have hlt := ofBE_lt (s.take n)
    rw [hlen] at hlt
    have hv : (BitVec.ofNat w (ofBE (s.take n))).toNat = ofBE (s.take n) :=
      BitVec.toNat_ofNat _ _ ▸ Nat.mod_eq_of_lt (hlt.trans_le hpow)
    rw [hv]
    refine ⟨s.take n, s.drop n, (List.take_append_drop n s).symm, ⟨hlt, ?_⟩, by rw [hlen]⟩
    rw [toBE_ofBE_of_length hlen]
  · rintro ⟨_, rest, rfl, ⟨hv, rfl⟩, rfl⟩
    refine ⟨_, ⟨hi, rfl⟩, (), ?_, v, ?_, ?_⟩
    · rw [List.length_append, length_toBE]
      omega
    · rw [accumulate_of_length _ _ (length_toBE _ _), ofBE_toBE hv, BitVec.ofNat_toNat,
        BitVec.setWidth_eq]
    · rw [length_toBE]

/-- The two errors the check reports. -/
def Revert.IsJournalError (e : Revert) : Prop := e = .malformedJournal ∨ e = .journalBindingMismatch

theorem Revert.malformedJournal_isJournalError :
    Revert.malformedJournal.IsJournalError := Or.inl rfl

theorem Revert.journalBindingMismatch_isJournalError :
    Revert.journalBindingMismatch.IsJournalError := Or.inr rfl

theorem failsOnlyAt_readUint {i w n : ℕ} (hi : i + n < 2 ^ 256) :
    FailsOnlyAt i Revert.IsJournalError (readUint w n) := by
  intro bytes hle e he
  have hadd : checkedAdd i n = .ok (i + n) := checkedAdd_eq_ok.mpr ⟨hi, rfl⟩
  simp only [readUint, hadd, ok_bind, bind_eq_error, ensure_eq_error, ensure_eq_ok] at he
  rcases he with ⟨-, rfl⟩ | ⟨-, hn, he | ⟨r, -, he⟩⟩
  · exact Revert.malformedJournal_isJournalError
  · -- Within bounds the loop does not run past the end.
    have hpre : (bytes.take i).length = i := List.length_take_of_le hle
    have hlen : ((bytes.drop i).take n).length = n :=
      List.length_take_of_le (by rw [List.length_drop]; omega)
    have hok := accumulate_of_length (w := w) (bytes.take i) ((bytes.drop i).drop n)
      hlen
    rw [List.take_append_drop, List.take_append_drop, hpre] at hok
    rw [hok] at he
    exact absurd he ok_ne_error
  · exact absurd he ok_ne_error

/-! ## The check, field by field -/

/-- From offset `i` on, the check passes exactly on the byte strings in `S`, and fails with one of
its two errors on any other. -/
def Checks (i : ℕ) (p : Parser Revert Unit) (S : Bytes → Prop) : Prop :=
  ExactEndAt i p (fun _ s ↦ S s) ∧ FailsOnlyAt i Revert.IsJournalError p

theorem checks_finish (i : ℕ) : Checks i (Parser.finish fun _ ↦ .malformedJournal) (· = []) :=
  ⟨exactEnd_finish _ i, (failsOnly_finish fun _ ↦ Revert.malformedJournal_isJournalError).at i⟩

theorem checks_expect {i w n : ℕ} {v : BitVec w} {e : Revert} {p : Parser Revert Unit}
    {S : Bytes → Prop} (hw : 8 * n ≤ w) (hi : i + n < 2 ^ 256) (he : e.IsJournalError)
    (hp : Checks (i + n) p S) :
    Checks i (readUint w n >>= fun x ↦ Parser.check (x = v) e >>= fun _ ↦ p) fun s ↦
      ∃ t, s = toBE n v.toNat ++ t ∧ v.toNat < 256 ^ n ∧ S t := by
  have hread := exactAt_readUint hw hi
  constructor
  · have hrest : ∀ x b, x.toNat < 256 ^ n ∧ b = toBE n x.toNat →
        ExactEndAt (i + b.length) (Parser.check (x = v) e >>= fun _ ↦ p)
          (Seq (fun (_ : Unit) b ↦ x = v ∧ b = []) fun _ _ s ↦ S s) := by
      rintro x b ⟨-, rfl⟩
      refine exactEndAt_bind (exact_check _ _ _) ?_
      rintro _ b ⟨-, rfl⟩
      rw [length_toBE]
      exact hp.1
    refine (exactEndAt_bind hread hrest).congr fun _ s ↦ ?_
    rw [seq_iff]
    constructor
    · rintro ⟨x, t, rfl, hx, _, _, t', rfl, ⟨rfl, rfl⟩, hS⟩
      exact ⟨t', rfl, hx, hS⟩
    · rintro ⟨t, rfl, hv, hS⟩
      exact ⟨v, t, rfl, hv, (), [], t, rfl, ⟨rfl, rfl⟩, hS⟩
  · refine failsOnlyAt_bind hread (failsOnlyAt_readUint hi) fun x b hb ↦
      failsOnlyAt_bind (exact_check _ _ _) (FailsOnly.at (failsOnly_check he) _) ?_
    rintro _ b' ⟨-, rfl⟩
    rw [hb.2, length_toBE]
    exact hp.2

theorem checks_address {i : ℕ} {a : Address} {p : Parser Revert Unit} {S : Bytes → Prop}
    (hi : i + 22 < 2 ^ 256) (hp : Checks (i + 22) p S) :
    Checks i (readAddress >>= fun x ↦ Parser.check (x = a) .journalBindingMismatch >>= fun _ ↦ p)
      fun s ↦ ∃ t, s = prefixed (toBE 20 a.toNat) ++ t ∧ S t := by
  have ha : a.toNat < 256 ^ 20 := a.isLt.trans_eq (by norm_num)
  have h := checks_expect (i := i) (v := (20 : Word)) (n := 2) (by norm_num) (by omega) (Or.inl rfl)
    (checks_expect (v := a) (n := 20) (by norm_num) (by omega) (Or.inr rfl) hp)
  simp only [readAddress, bind_assoc]
  refine ⟨h.1.congr fun _ s ↦ ?_, h.2⟩
  constructor
  · rintro ⟨_, rfl, -, t, rfl, -, hS⟩
    exact ⟨t, by rw [prefixed, length_toBE, List.append_assoc]; rfl, hS⟩
  · rintro ⟨t, rfl, hS⟩
    refine ⟨_, ?_, by decide, t, rfl, ha, hS⟩
    rw [prefixed, length_toBE, List.append_assoc]
    rfl

/-! ## The journal of an escrow -/

/-- The bytes of an address. -/
def addressBytes (a : Address) : Bytes := toBE 20 a.toNat

/-- The commitment a guest makes when the release condition of this escrow is met. -/
def releaseCommitment (self : Address) (escrow : EscrowDB) (escrowId : Word) :
    PublicCommitment where
  chain := .ethereum
  agentId := addressBytes self
  escrowId := UInt64.ofNat escrowId.toNat
  sender := addressBytes escrow.sender
  recipient := addressBytes escrow.recipient
  assetKind := .native
  assetToken := []
  amount := escrow.amount.toNat
  condition := ⟨toBE 32 escrow.conditionId.toNat, length_toBE _ _⟩
  outcome := .success .conditionsMet

theorem encodable_releaseCommitment (self : Address) (escrow : EscrowDB) (escrowId : Word) :
    (releaseCommitment self escrow escrowId).Encodable := by
  have hlen (a : Address) : (addressBytes a).length < 2 ^ 16 := by
    rw [addressBytes, length_toBE]
    norm_num
  exact ⟨escrow.amount.isLt, hlen _, hlen _, hlen _, by norm_num [releaseCommitment]⟩

private theorem layout_releaseCommitment (self : Address) (escrow : EscrowDB) (escrowId : Word) :
    (releaseCommitment self escrow escrowId).layout =
      toBE 1 (1 : Word).toNat ++ (toBE 1 (0 : Word).toNat ++ (toBE 1 (1 : Word).toNat ++
        (toBE 1 (2 : Word).toNat ++ (prefixed (toBE 20 self.toNat) ++
          (toBE 8 (UInt64.ofNat escrowId.toNat).toNat ++ (prefixed (toBE 20 escrow.sender.toNat) ++
            (prefixed (toBE 20 escrow.recipient.toNat) ++ (toBE 1 (0 : Word).toNat ++
              (toBE 2 (0 : Word).toNat ++ (toBE 32 escrow.amount.toNat ++
                toBE 32 escrow.conditionId.toNat)))))))))) := rfl

/-- The check passes exactly on the layout of the commitment, and reports one of its errors on any
other journal. -/
theorem checks_readJournalBinding (self : Address) (escrow : EscrowDB) (escrowId : Word) :
    Checks 0 (readJournalBinding self escrow escrowId) fun s ↦
      escrowId.toNat < 2 ^ 64 ∧ s = (releaseCommitment self escrow escrowId).layout := by
  have hbad := Revert.malformedJournal_isJournalError
  have hmis := Revert.journalBindingMismatch_isJournalError
  have h := checks_expect (i := 0) (v := (1 : Word)) (n := 1) (by norm_num) (by norm_num) hbad <|
    checks_expect (v := (0 : Word)) (n := 1) (by norm_num) (by norm_num) hbad <|
    checks_expect (v := (1 : Word)) (n := 1) (by norm_num) (by norm_num) hbad <|
    checks_expect (v := (2 : Word)) (n := 1) (by norm_num) (by norm_num) hbad <|
    checks_address (a := self) (by norm_num) <|
    checks_expect (v := escrowId) (n := 8) (by norm_num) (by norm_num) hmis <|
    checks_address (a := escrow.sender) (by norm_num) <|
    checks_address (a := escrow.recipient) (by norm_num) <|
    checks_expect (v := (0 : Word)) (n := 1) (by norm_num) (by norm_num) hbad <|
    checks_expect (v := (0 : Word)) (n := 2) (by norm_num) (by norm_num) hbad <|
    checks_expect (v := escrow.amount) (n := 32) (by norm_num) (by norm_num) hmis <|
    checks_expect (v := escrow.conditionId) (n := 32) (by norm_num) (by norm_num) hmis <|
    checks_finish _
  refine ⟨h.1.congr fun _ s ↦ ?_, h.2⟩
  rw [layout_releaseCommitment]
  constructor
  · rintro ⟨_, rfl, -, _, rfl, -, _, rfl, -, _, rfl, -, _, rfl, _, rfl, hid, _, rfl, _, rfl,
      _, rfl, -, _, rfl, -, _, rfl, -, _, rfl, -, rfl⟩
    have hid' : escrowId.toNat < 2 ^ 64 := hid.trans_eq (by norm_num)
    rw [UInt64.toNat_ofNat_of_lt' hid', List.append_nil]
    exact ⟨hid', rfl⟩
  · rintro ⟨hid, rfl⟩
    rw [UInt64.toNat_ofNat_of_lt' hid]
    exact ⟨_, rfl, by decide, _, rfl, by decide, _, rfl, by decide, _, rfl, by decide, _, rfl,
      _, rfl, hid.trans_eq (by norm_num), _, rfl, _, rfl, _, rfl, by decide, _, rfl, by decide,
      _, rfl, escrow.amount.isLt.trans_eq (by norm_num), [], (List.append_nil _).symm,
      escrow.conditionId.isLt.trans_eq (by norm_num), rfl⟩

theorem checkJournalBinding_eq_ok {self : Address} {escrow : EscrowDB} {escrowId : Word}
    {journal : Bytes} : checkJournalBinding self escrow escrowId journal = .ok () ↔
      escrowId.toNat < 2 ^ 64 ∧
        (releaseCommitment self escrow escrowId).toJournalBytes = .ok journal := by
  rw [checkJournalBinding, (checks_readJournalBinding self escrow escrowId).1.parse_eq_ok,
    PublicCommitment.toJournalBytes_iff, and_iff_right (encodable_releaseCommitment _ _ _)]

theorem failsOnly_checkJournalBinding (self : Address) (escrow : EscrowDB) (escrowId : Word)
    (journal : Bytes) :
    Foundation.FailsOnly Revert.IsJournalError (checkJournalBinding self escrow escrowId journal) :=
  (checks_readJournalBinding self escrow escrowId).2.parse journal

/-- **The Solidity check accepts exactly the encoder's output.** It passes if and only if the id
fits eight bytes and the journal is the encoding of this escrow's release commitment; on every other
byte string it reports one of its two errors. -/
theorem checkJournalBinding_iff (self : Address) (escrow : EscrowDB) (escrowId : Word)
    (journal : Bytes) :
    (checkJournalBinding self escrow escrowId journal = .ok () ↔ escrowId.toNat < 2 ^ 64 ∧
      (releaseCommitment self escrow escrowId).toJournalBytes = .ok journal) ∧
    ∀ e, checkJournalBinding self escrow escrowId journal = .error e →
      e = .malformedJournal ∨ e = .journalBindingMismatch :=
  ⟨checkJournalBinding_eq_ok, failsOnly_checkJournalBinding self escrow escrowId journal⟩

end Zescrow.Ethereum
