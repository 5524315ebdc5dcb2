import Zescrow.Core.Commitment

/-!
# The journal codec

The journal of a commitment is the concatenation `layout`, and the encoder produces it exactly when
every field fits (`Encodable`). The decoder is exact for that layout: it returns `c` on a byte
string if and only if `c` is encodable and the string is its layout. Both directions of the round
trip, injectivity and the absence of panics are read off from this one equivalence.
-/

open Foundation Parser

namespace Zescrow

/-! ## The layout -/

/-- A byte string behind its two-byte length. -/
def prefixed (b : Bytes) : Bytes := toBE 2 b.length ++ b

/-- The outcome tag, and the state on success. -/
def outcomeBytes : ExecutionResult → Bytes
  | .success state => [1, stateTag state]
  | .failure => [0]

namespace PublicCommitment

/-- Every field fits the journal. -/
structure Encodable (c : PublicCommitment) : Prop where
  amount : c.amount < 2 ^ 256
  agentId : c.agentId.length < 2 ^ 16
  sender : c.sender.length < 2 ^ 16
  recipient : c.recipient.length < 2 ^ 16
  assetToken : c.assetToken.length < 2 ^ 16

/-- The journal bytes, field after field. -/
def layout (c : PublicCommitment) : Bytes :=
  [journalVersion] ++ ([chainTag c.chain] ++ (outcomeBytes c.outcome ++ (prefixed c.agentId ++
    (toBE 8 c.escrowId.toNat ++ (prefixed c.sender ++ (prefixed c.recipient ++
      ([assetKindTag c.assetKind] ++ (prefixed c.assetToken ++ (toBE amountWidth c.amount ++
        c.condition.1)))))))))

end PublicCommitment

/-! ## The encoder -/

theorem pushBytes_eq_ok {out b r : Bytes} :
    pushBytes out b = .ok r ↔ b.length < 2 ^ 16 ∧ r = out ++ prefixed b := by
  rw [pushBytes]
  by_cases h : b.length < 2 ^ 16
  · rw [if_pos h, prefixed, List.append_assoc, Except.ok.injEq]
    exact ⟨fun h' ↦ ⟨h, h'.symm⟩, fun h' ↦ h'.2.symm⟩
  · rw [if_neg h]
    exact ⟨fun h' ↦ absurd h' error_ne_ok, fun h' ↦ absurd h'.1 h⟩

theorem pow_amountWidth : 256 ^ amountWidth = 2 ^ 256 := by norm_num [amountWidth]

theorem amountBEBytes_eq_ok {n : BigNumber} {r : FixedBytes amountWidth} :
    amountBEBytes n = .ok r ↔ n < 2 ^ 256 ∧ r.1 = toBE amountWidth n := by
  have hlt : n < 256 ^ (Nat.log 256 n + 1) := Nat.lt_pow_succ_log_self (by norm_num) n
  rw [amountBEBytes]
  by_cases h : (bigUintToBytesBE n).length ≤ amountWidth
  · have hlog : Nat.log 256 n + 1 ≤ amountWidth := by rwa [bigUintToBytesBE, length_toBE] at h
    have hn : n < 2 ^ 256 :=
      pow_amountWidth ▸ hlt.trans_le (Nat.pow_le_pow_right (by norm_num) hlog)
    have hpad : List.replicate (amountWidth - (bigUintToBytesBE n).length) 0 ++ bigUintToBytesBE n
        = toBE amountWidth n := by
      rw [bigUintToBytesBE, length_toBE, ← toBE_add _ hlt, Nat.sub_add_cancel hlog]
    simp only [dif_pos h, Except.ok.injEq, Subtype.ext_iff, hpad, hn, true_and]
    exact eq_comm
  · have hn : ¬n < 2 ^ 256 := by
      rw [bigUintToBytesBE, length_toBE] at h
      rw [← pow_amountWidth]
      intro hn
      rcases Nat.eq_zero_or_pos n with rfl | hpos
      · simp [amountWidth] at h
      · exact h (Nat.log_lt_of_lt_pow hpos.ne' hn)
    rw [dif_neg h]
    exact ⟨fun h' ↦ absurd h' error_ne_ok, fun h' ↦ absurd h'.1 hn⟩

private theorem PublicCommitment.toJournalBytes_eq (c : PublicCommitment) :
    c.toJournalBytes = (do
      let out ← pushBytes ([journalVersion, chainTag c.chain] ++ outcomeBytes c.outcome) c.agentId
      let out ← pushBytes (out ++ toBE 8 c.escrowId.toNat) c.sender
      let out ← pushBytes out c.recipient
      let out ← pushBytes (out ++ [assetKindTag c.assetKind]) c.assetToken
      let amount ← amountBEBytes c.amount
      .ok (out ++ amount.1 ++ c.condition.1)) := by
  rw [toJournalBytes]
  cases c.outcome <;> rfl

/-- The encoder writes the layout, and refuses exactly the commitments that do not fit. -/
theorem PublicCommitment.toJournalBytes_iff {c : PublicCommitment} {b : Bytes} :
    c.toJournalBytes = .ok b ↔ c.Encodable ∧ b = c.layout := by
  simp only [toJournalBytes_eq, bind_eq_ok, pushBytes_eq_ok, amountBEBytes_eq_ok]
  constructor
  · rintro ⟨_, ⟨hagent, rfl⟩, _, ⟨hsender, rfl⟩, _, ⟨hrecipient, rfl⟩, _, ⟨htoken, rfl⟩, r,
      ⟨hamount, hr⟩, hb⟩
    refine ⟨⟨hamount, hagent, hsender, hrecipient, htoken⟩, ?_⟩
    obtain rfl := Except.ok.inj hb
    rw [hr]
    simp [layout]
  · rintro ⟨h, rfl⟩
    refine ⟨_, ⟨h.agentId, rfl⟩, _, ⟨h.sender, rfl⟩, _, ⟨h.recipient, rfl⟩, _,
      ⟨h.assetToken, rfl⟩, ⟨toBE amountWidth c.amount, length_toBE _ _⟩, ⟨h.amount, rfl⟩, ?_⟩
    simp [layout]

/-! ## The reader, operation by operation

Every reader accepts the encodings of its field, and reports one that is cut short as truncated. -/

/-- The fault of a read past the end. -/
def Fault.IsTruncated (f : Fault) : Prop := ∃ offset, f = .error (.truncated offset)

theorem isTruncated_error (offset : ℕ) : (Fault.error (.truncated offset)).IsTruncated :=
  ⟨offset, rfl⟩

theorem delimited_pure {α : Type} (a : α) :
    Delimited Fault.IsTruncated (pure a) fun x b ↦ x = a ∧ b = [] :=
  (exact_pure a).delimited fun _ _ h ↦ h.2

theorem delimited_expect {α : Type} (message : String) (o : Option α) :
    Delimited Fault.IsTruncated (Reader.expect message o) fun x b ↦ o = some x ∧ b = [] := by
  refine Exact.delimited ?_ fun _ _ h ↦ h.2
  cases o with
  | none => exact exact_fail_of fun _ _ h ↦ absurd h.1.symm (Option.some_ne_none _)
  | some a => exact (exact_pure a).congr fun x b ↦ by simp [eq_comm]

theorem delimited_take (n : ℕ) :
    Delimited Fault.IsTruncated (Reader.take n) fun x b ↦ x = b ∧ b.length = n :=
  Parser.delimited_take n isTruncated_error

theorem tryInto_eq_some {n : ℕ} {b : Bytes} {x : FixedBytes n} :
    Reader.tryInto n b = some x ↔ b = x.1 := by
  rw [Reader.tryInto]
  split
  · next h =>
    rw [Option.some.injEq, Subtype.ext_iff]
  · next h =>
    constructor
    · exact fun h' ↦ absurd h'.symm (Option.some_ne_none _)
    · rintro rfl
      exact absurd x.2 h

theorem delimited_u8 : Delimited Fault.IsTruncated Reader.u8 fun x b ↦ True ∧ b = [x] := by
  refine (delimited_bind (delimited_take 1) fun s ↦ delimited_expect _ s.head?).congr fun x b ↦ ?_
  constructor
  · rintro ⟨a, b, t, rfl, ⟨rfl, hlen⟩, hhead, rfl⟩
    obtain ⟨y, rfl⟩ := List.length_eq_one_iff.mp hlen
    simpa using hhead
  · rintro ⟨-, rfl⟩
    exact ⟨[x], [x], [], rfl, ⟨rfl, rfl⟩, rfl, rfl⟩

/-- Taking `n` bytes and converting them to an array of `n` bytes cannot panic. -/
theorem delimited_take_tryInto (n : ℕ) (message : String) :
    Delimited Fault.IsTruncated
      (Reader.take n >>= fun s ↦ Reader.expect message (Reader.tryInto n s))
      fun x b ↦ True ∧ b = x.1 := by
  refine (delimited_bind (delimited_take n) fun s ↦ delimited_expect _ _).congr fun x b ↦ ?_
  constructor
  · rintro ⟨a, b, t, rfl, ⟨rfl, hlen⟩, hinto, rfl⟩
    exact ⟨trivial, by rw [List.append_nil, tryInto_eq_some.mp hinto]⟩
  · rintro ⟨-, rfl⟩
    exact ⟨x.1, x.1, [], (List.append_nil _).symm, ⟨rfl, x.2⟩, tryInto_eq_some.mpr rfl, rfl⟩

theorem delimited_array32 : Delimited Fault.IsTruncated Reader.array32 fun x b ↦ True ∧ b = x.1 :=
  delimited_take_tryInto 32 _

theorem delimited_u64 :
    Delimited Fault.IsTruncated Reader.u64 fun x b ↦ True ∧ b = toBE 8 x.toNat := by
  have hassoc : Reader.u64 = (Reader.take 8 >>= fun s ↦
      Reader.expect "slice of length 8" (Reader.tryInto 8 s)) >>= fun bytes ↦
        pure (UInt64.ofNat (ofBE bytes.1)) := by
    rw [Reader.u64, bind_assoc]
  rw [hassoc]
  refine (delimited_bind (delimited_take_tryInto 8 _) fun a ↦ delimited_pure _).congr fun x b ↦ ?_
  rw [seq_iff]
  constructor
  · rintro ⟨a, t, rfl, -, rfl, rfl⟩
    have hlt : ofBE a.1 < 2 ^ 64 := by
      have h := ofBE_lt a.1
      rw [a.2] at h
      exact h
    rw [UInt64.toNat_ofNat_of_lt' hlt, toBE_ofBE_of_length a.2, List.append_nil]
    exact ⟨trivial, rfl⟩
  · rintro ⟨-, rfl⟩
    refine ⟨⟨toBE 8 x.toNat, length_toBE _ _⟩, [], (List.append_nil _).symm, trivial, ?_, rfl⟩
    rw [ofBE_toBE x.toNat_lt, UInt64.ofNat_toNat]

theorem delimited_lengthPrefixed : Delimited Fault.IsTruncated Reader.lengthPrefixed
    fun x b ↦ x.length < 2 ^ 16 ∧ b = prefixed x := by
  have hassoc : Reader.lengthPrefixed = (Reader.take 2 >>= fun s ↦
      Reader.expect "slice of length 2" (Reader.tryInto 2 s)) >>= fun len ↦
        Reader.take (ofBE len.1) := by
    rw [Reader.lengthPrefixed, bind_assoc]
  rw [hassoc]
  refine (delimited_bind (delimited_take_tryInto 2 _) fun len ↦ delimited_take _).congr fun x b ↦ ?_
  rw [seq_iff]
  constructor
  · rintro ⟨len, t, rfl, -, rfl, hlen⟩
    have hlt := ofBE_lt len.1
    rw [len.2] at hlt
    rw [prefixed, hlen, toBE_ofBE_of_length len.2]
    exact ⟨hlt, rfl⟩
  · rintro ⟨hlt, rfl⟩
    exact ⟨⟨toBE 2 x.length, length_toBE _ _⟩, x, rfl, trivial, rfl, (ofBE_toBE hlt).symm⟩

theorem delimited_amount :
    Delimited Fault.IsTruncated (Reader.take amountWidth >>= fun s ↦ pure (ofBE s))
      fun x b ↦ x < 2 ^ 256 ∧ b = toBE amountWidth x := by
  refine (delimited_bind (delimited_take _) fun s ↦ delimited_pure (ofBE s)).congr fun x b ↦ ?_
  constructor
  · rintro ⟨a, b, t, rfl, ⟨rfl, hlen⟩, rfl, rfl⟩
    have hlt := ofBE_lt a
    rw [hlen] at hlt
    rw [toBE_ofBE_of_length hlen, List.append_nil]
    exact ⟨pow_amountWidth ▸ hlt, rfl⟩
  · rintro ⟨hlt, rfl⟩
    refine ⟨_, _, [], (List.append_nil _).symm, ⟨rfl, length_toBE _ _⟩, ?_, rfl⟩
    exact (ofBE_toBE (pow_amountWidth ▸ hlt)).symm

/-! ## Tags -/

/-- A tag byte followed by a reader that accepts the tag of `x` as `x`, and nothing else. -/
theorem delimited_tagged {α : Type} {fromTag : UInt8 → Parser Fault α} {tag : α → UInt8}
    (h : ∀ t, Exact (fromTag t) fun x b ↦ t = tag x ∧ b = []) :
    Delimited Fault.IsTruncated (Reader.u8 >>= fromTag) fun x b ↦ True ∧ b = [tag x] := by
  refine (delimited_bind delimited_u8 fun t ↦ (h t).delimited fun _ _ h ↦ h.2).congr fun x b ↦ ?_
  rw [seq_iff]
  constructor
  · rintro ⟨t, rest, rfl, -, rfl, rfl⟩
    exact ⟨trivial, rfl⟩
  · rintro ⟨-, rfl⟩
    exact ⟨_, [], rfl, trivial, rfl, rfl⟩

theorem delimited_version : Delimited Fault.IsTruncated (Reader.u8 >>= fun version ↦
    Parser.check (version = journalVersion) (.error (.unknownVersion version)))
      fun _ b ↦ True ∧ b = [journalVersion] :=
  delimited_tagged fun _ ↦ exact_check _ _

/-- A match on a tag that knows the tag of every value and fails on every other one. -/
theorem exact_fromTag {α : Type} {fromTag : UInt8 → Parser Fault α} {tag : α → UInt8}
    (hpure : ∀ x, fromTag (tag x) = pure x)
    (hfail : ∀ t, (∀ x, t ≠ tag x) → ∃ e, fromTag t = Parser.fail e) (t : UInt8) :
    Exact (fromTag t) fun x b ↦ t = tag x ∧ b = [] := by
  by_cases h : ∃ x, t = tag x
  · obtain ⟨x, rfl⟩ := h
    rw [hpure]
    refine (exact_pure x).congr fun y b ↦ and_congr_left fun _ ↦ ⟨fun hy ↦ hy ▸ rfl, fun htag ↦ ?_⟩
    have hxy : (pure x : Parser Fault α) = pure y := by rw [← hpure, ← hpure, htag]
    exact (Prod.mk.inj (Except.ok.inj (congrFun hxy ⟨[], 0⟩))).1.symm
  · have hno : ∀ x, t ≠ tag x := fun x hx ↦ h ⟨x, hx⟩
    obtain ⟨e, he⟩ := hfail t hno
    rw [he]
    exact exact_fail_of fun x b hx ↦ hno x hx.1

theorem exact_chainFromTag (t : UInt8) :
    Exact (chainFromTag t) fun x b ↦ t = chainTag x ∧ b = [] := by
  refine exact_fromTag (fun x ↦ by cases x <;> rfl) (fun t hno ↦ ?_) t
  unfold chainFromTag
  split
  · exact absurd rfl (hno .ethereum)
  · exact absurd rfl (hno .solana)
  · exact ⟨_, rfl⟩

theorem exact_assetKindFromTag (t : UInt8) :
    Exact (assetKindFromTag t) fun x b ↦ t = assetKindTag x ∧ b = [] := by
  refine exact_fromTag (fun x ↦ by cases x <;> rfl) (fun t hno ↦ ?_) t
  unfold assetKindFromTag
  split
  · exact absurd rfl (hno .native)
  · exact absurd rfl (hno .token)
  · exact ⟨_, rfl⟩

theorem exact_stateFromTag (t : UInt8) :
    Exact (stateFromTag t) fun x b ↦ t = stateTag x ∧ b = [] := by
  refine exact_fromTag (fun x ↦ by cases x <;> rfl) (fun t hno ↦ ?_) t
  unfold stateFromTag
  split
  · exact absurd rfl (hno .initialized)
  · exact absurd rfl (hno .funded)
  · exact absurd rfl (hno .conditionsMet)
  · exact ⟨_, rfl⟩

theorem delimited_outcomeFromTag (t : UInt8) :
    Delimited Fault.IsTruncated (outcomeFromTag t) fun x b ↦ t :: b = outcomeBytes x := by
  unfold outcomeFromTag
  split
  · exact (delimited_pure _).congr fun x b ↦ by cases x <;> simp [outcomeBytes]
  · have hstate : Delimited Fault.IsTruncated (Reader.u8 >>= stateFromTag)
        fun x b ↦ True ∧ b = [stateTag x] := delimited_tagged exact_stateFromTag
    rw [← bind_assoc]
    refine (delimited_bind hstate fun state ↦ delimited_pure _).congr fun x b ↦ ?_
    rw [seq_iff]
    constructor
    · rintro ⟨state, rest, rfl, -, rfl, rfl⟩
      rfl
    · intro h
      cases x with
      | failure => exact nomatch (List.cons.inj h).1
      | success state => exact ⟨state, [], (List.cons_inj_right _).mp h, trivial, rfl, rfl⟩
  · next h0 h1 =>
    have hno (x : ExecutionResult) (b : Bytes) : t :: b ≠ outcomeBytes x := by
      intro h
      cases x with
      | failure => exact h0 (List.cons.inj h).1
      | success state => exact h1 (List.cons.inj h).1
    exact (exact_fail_of hno).delimited fun x b h ↦ absurd h (hno x b)

theorem delimited_outcome : Delimited Fault.IsTruncated (Reader.u8 >>= outcomeFromTag)
    fun x b ↦ True ∧ b = outcomeBytes x := by
  refine (delimited_bind delimited_u8 delimited_outcomeFromTag).congr fun x b ↦ ?_
  rw [seq_iff]
  constructor
  · rintro ⟨t, rest, rfl, -, h⟩
    exact ⟨trivial, h⟩
  · rintro ⟨-, rfl⟩
    cases x with
    | success state => exact ⟨_, _, rfl, trivial, rfl⟩
    | failure => exact ⟨_, _, rfl, trivial, rfl⟩

/-! ## The decoder -/

private theorem readCommitment_eq : readCommitment = (do
    Reader.u8 >>= fun version ↦
      Parser.check (version = journalVersion) (.error (.unknownVersion version))
    let chain ← Reader.u8 >>= chainFromTag
    let outcome ← Reader.u8 >>= outcomeFromTag
    let agentId ← Reader.lengthPrefixed
    let escrowId ← Reader.u64
    let sender ← Reader.lengthPrefixed
    let recipient ← Reader.lengthPrefixed
    let assetKind ← Reader.u8 >>= assetKindFromTag
    let assetToken ← Reader.lengthPrefixed
    let amount ← Reader.take amountWidth >>= fun s ↦ pure (ofBE s)
    let condition ← Reader.array32
    Reader.finish
    return {
      chain, agentId, escrowId, sender, recipient, assetKind, assetToken, amount, condition,
      outcome }) := by
  simp only [readCommitment, bind_assoc, pure_bind]

/-- The decoder accepts exactly the layouts of encodable commitments, and reports where one is cut
short or where it ends. -/
theorem delimitedEnd_readCommitment :
    DelimitedEnd Fault.IsTruncated (fun offset ↦ .error (.trailingBytes offset)) readCommitment
      fun c s ↦ c.Encodable ∧ s = c.layout := by
  rw [readCommitment_eq]
  refine (delimitedEnd_bind delimited_version fun _ ↦
    delimitedEnd_bind (delimited_tagged exact_chainFromTag) fun chain ↦
    delimitedEnd_bind delimited_outcome fun outcome ↦
    delimitedEnd_bind delimited_lengthPrefixed fun agentId ↦
    delimitedEnd_bind delimited_u64 fun escrowId ↦
    delimitedEnd_bind delimited_lengthPrefixed fun sender ↦
    delimitedEnd_bind delimited_lengthPrefixed fun recipient ↦
    delimitedEnd_bind (delimited_tagged exact_assetKindFromTag) fun assetKind ↦
    delimitedEnd_bind delimited_lengthPrefixed fun assetToken ↦
    delimitedEnd_bind delimited_amount fun amount ↦
    delimitedEnd_bind delimited_array32 fun condition ↦
    delimitedEnd_finish _).congr fun c s ↦ ?_
  simp only [seq_iff]
  constructor
  · rintro ⟨_, _, rfl, -, chain, _, rfl, -, outcome, _, rfl, -, agentId, _, rfl, hagent,
      escrowId, _, rfl, -, sender, _, rfl, hsender, recipient, _, rfl, hrecipient,
      assetKind, _, rfl, -, assetToken, _, rfl, htoken, amount, _, rfl, hamount,
      condition, _, rfl, -, rfl, rfl⟩
    refine ⟨⟨hamount, hagent, hsender, hrecipient, htoken⟩, ?_⟩
    rw [PublicCommitment.layout, List.append_nil]
  · rintro ⟨h, rfl⟩
    refine ⟨(), _, rfl, trivial, c.chain, _, rfl, trivial, c.outcome, _, rfl, trivial, c.agentId, _,
      rfl, h.agentId, c.escrowId, _, rfl, trivial, c.sender, _, rfl, h.sender, c.recipient, _, rfl,
      h.recipient, c.assetKind, _, rfl, trivial, c.assetToken, _, rfl, h.assetToken, c.amount, _,
      rfl, h.amount, c.condition, [], (List.append_nil _).symm, trivial, rfl, rfl⟩

theorem PublicCommitment.fromJournalBytes_iff {c : PublicCommitment} {b : Bytes} :
    fromJournalBytes b = .ok c ↔ c.Encodable ∧ b = c.layout :=
  (delimitedEnd_readCommitment.exact 0).parse_eq_ok

/-- **Decoding inverts encoding**, in both directions. -/
theorem PublicCommitment.fromJournalBytes_eq_ok_iff {c : PublicCommitment} {b : Bytes} :
    fromJournalBytes b = .ok c ↔ c.toJournalBytes = .ok b := by
  rw [fromJournalBytes_iff, toJournalBytes_iff]

/-! ## No panics -/

/-- The fault is a reported error, not a panic. -/
def Fault.IsError (f : Fault) : Prop := ∃ e, f = .error e

section

private theorem isError_error (e : CommitmentError) : (Fault.error e).IsError := ⟨e, rfl⟩

theorem failsOnly_expect_tryInto {n : ℕ} {message : String} {s : Bytes} (h : s.length = n) :
    Parser.FailsOnly Fault.IsError (Reader.expect message (Reader.tryInto n s)) := by
  rw [Reader.tryInto, dif_pos h]
  exact failsOnly_pure _

theorem failsOnly_u8 : Parser.FailsOnly Fault.IsError Reader.u8 := by
  refine failsOnly_take_bind (fun _ ↦ isError_error _) fun s hs ↦ ?_
  obtain ⟨x, rfl⟩ := List.length_eq_one_iff.mp hs
  exact failsOnly_pure x

theorem failsOnly_u64 : Parser.FailsOnly Fault.IsError Reader.u64 :=
  failsOnly_take_bind (fun _ ↦ isError_error _) fun _ hs ↦
    failsOnly_bind (failsOnly_expect_tryInto hs) fun _ ↦ failsOnly_pure _

theorem failsOnly_array32 : Parser.FailsOnly Fault.IsError Reader.array32 :=
  failsOnly_take_bind (fun _ ↦ isError_error _) fun _ hs ↦ failsOnly_expect_tryInto hs

theorem failsOnly_take (n : ℕ) : Parser.FailsOnly Fault.IsError (Reader.take n) :=
  Parser.failsOnly_take n fun _ ↦ isError_error _

theorem failsOnly_lengthPrefixed : Parser.FailsOnly Fault.IsError Reader.lengthPrefixed :=
  failsOnly_take_bind (fun _ ↦ isError_error _) fun _ hs ↦
    failsOnly_bind (failsOnly_expect_tryInto hs) fun _ ↦ failsOnly_take _

theorem failsOnly_chainFromTag (t : UInt8) :
    Parser.FailsOnly Fault.IsError (chainFromTag t) := by
  unfold chainFromTag
  split
  · exact failsOnly_pure _
  · exact failsOnly_pure _
  · exact failsOnly_fail (isError_error _)

theorem failsOnly_assetKindFromTag (t : UInt8) :
    Parser.FailsOnly Fault.IsError (assetKindFromTag t) := by
  unfold assetKindFromTag
  split
  · exact failsOnly_pure _
  · exact failsOnly_pure _
  · exact failsOnly_fail (isError_error _)

theorem failsOnly_stateFromTag (t : UInt8) :
    Parser.FailsOnly Fault.IsError (stateFromTag t) := by
  unfold stateFromTag
  split
  · exact failsOnly_pure _
  · exact failsOnly_pure _
  · exact failsOnly_pure _
  · exact failsOnly_fail (isError_error _)

theorem failsOnly_outcomeFromTag (t : UInt8) :
    Parser.FailsOnly Fault.IsError (outcomeFromTag t) := by
  unfold outcomeFromTag
  split
  · exact failsOnly_pure _
  · exact failsOnly_bind failsOnly_u8 fun t ↦
      failsOnly_bind (failsOnly_stateFromTag t) fun _ ↦ failsOnly_pure _
  · exact failsOnly_fail (isError_error _)

theorem failsOnly_readCommitment : Parser.FailsOnly Fault.IsError readCommitment :=
  failsOnly_bind failsOnly_u8 fun _ ↦
  failsOnly_bind (failsOnly_check (isError_error _)) fun _ ↦
  failsOnly_bind failsOnly_u8 fun _ ↦
  failsOnly_bind (failsOnly_chainFromTag _) fun _ ↦
  failsOnly_bind failsOnly_u8 fun _ ↦
  failsOnly_bind (failsOnly_outcomeFromTag _) fun _ ↦
  failsOnly_bind failsOnly_lengthPrefixed fun _ ↦
  failsOnly_bind failsOnly_u64 fun _ ↦
  failsOnly_bind failsOnly_lengthPrefixed fun _ ↦
  failsOnly_bind failsOnly_lengthPrefixed fun _ ↦
  failsOnly_bind failsOnly_u8 fun _ ↦
  failsOnly_bind (failsOnly_assetKindFromTag _) fun _ ↦
  failsOnly_bind failsOnly_lengthPrefixed fun _ ↦
  failsOnly_bind (failsOnly_take _) fun _ ↦
  failsOnly_bind failsOnly_array32 fun _ ↦
  failsOnly_bind (failsOnly_finish fun _ ↦ isError_error _) fun _ ↦ failsOnly_pure _

end

/-- The decoder never reaches one of its `expect` calls. -/
theorem PublicCommitment.fromJournalBytes_ne_panic (b : Bytes) (message : String) :
    fromJournalBytes b ≠ .error (.panic message) := by
  intro h
  obtain ⟨e, he⟩ := (failsOnly_readCommitment.at 0).parse b _ h
  exact nomatch he

/-! ## The codec as a whole -/

namespace PublicCommitment

theorem toJournalBytes_isOk {p : PublicCommitment} :
    (∃ b, p.toJournalBytes = .ok b) ↔ p.Encodable := by
  constructor
  · rintro ⟨b, hb⟩
    exact (toJournalBytes_iff.mp hb).1
  · intro h
    exact ⟨p.layout, toJournalBytes_iff.mpr ⟨h, rfl⟩⟩

theorem toJournalBytes_inj {p q : PublicCommitment} {b : Bytes} (hp : p.toJournalBytes = .ok b)
    (hq : q.toJournalBytes = .ok b) : p = q := by
  have hp' := fromJournalBytes_eq_ok_iff.mpr hp
  have hq' := fromJournalBytes_eq_ok_iff.mpr hq
  rw [hp'] at hq'
  exact Except.ok.inj hq'

/-- **The journal codec is a bijection** between the commitments that fit the layout and the byte
strings the decoder accepts, and the decoder never panics. -/
theorem journal_codec_bijective :
    (∀ p : PublicCommitment, (∃ b, p.toJournalBytes = .ok b) ↔
      p.amount < 2 ^ 256 ∧ p.agentId.length ≤ 65535 ∧ p.sender.length ≤ 65535 ∧
        p.recipient.length ≤ 65535 ∧ p.assetToken.length ≤ 65535) ∧
    (∀ (p : PublicCommitment) (b : Bytes), p.toJournalBytes = .ok b → fromJournalBytes b = .ok p) ∧
    (∀ (b : Bytes) (p : PublicCommitment), fromJournalBytes b = .ok p → p.toJournalBytes = .ok b) ∧
    (∀ (p q : PublicCommitment) (b : Bytes),
      p.toJournalBytes = .ok b → q.toJournalBytes = .ok b → p = q) ∧
    (∀ (b b' : Bytes) (p : PublicCommitment),
      fromJournalBytes b = .ok p → fromJournalBytes b' = .ok p → b = b') ∧
    ∀ (b : Bytes) (message : String), fromJournalBytes b ≠ .error (.panic message) := by
  refine ⟨fun p ↦ ?_, fun p b ↦ fromJournalBytes_eq_ok_iff.mpr,
    fun b p ↦ fromJournalBytes_eq_ok_iff.mp, fun p q b ↦ toJournalBytes_inj, fun b b' p h h' ↦ ?_,
    fromJournalBytes_ne_panic⟩
  · rw [toJournalBytes_isOk]
    constructor
    · rintro ⟨ha, h1, h2, h3, h4⟩
      exact ⟨ha, Nat.lt_succ_iff.mp h1, Nat.lt_succ_iff.mp h2, Nat.lt_succ_iff.mp h3,
        Nat.lt_succ_iff.mp h4⟩
    · rintro ⟨ha, h1, h2, h3, h4⟩
      exact ⟨ha, Nat.lt_succ_of_le h1, Nat.lt_succ_of_le h2, Nat.lt_succ_of_le h3,
        Nat.lt_succ_of_le h4⟩
  · rw [fromJournalBytes_eq_ok_iff] at h h'
    rw [h] at h'
    exact Except.ok.inj h'

/-- **Journals are prefix-free**, and what keeps a byte string from being one is reported: a journal
that is cut short as truncated, and one that something follows by where the journal ends. -/
theorem journal_prefix_free (b : Bytes) (c : PublicCommitment) (h : fromJournalBytes b = .ok c) :
    (∀ s, s <+: b → s ≠ b → ∃ offset, fromJournalBytes s = .error (.error (.truncated offset))) ∧
    ∀ s, b <+: s → s ≠ b → fromJournalBytes s = .error (.error (.trailingBytes b.length)) := by
  obtain ⟨henc, rfl⟩ := fromJournalBytes_iff.mp h
  constructor
  · rintro s ⟨t, ht⟩ hne
    have hcut : t ≠ [] := by
      rintro rfl
      exact hne (ht ▸ (List.append_nil s).symm)
    obtain ⟨_, hs, offset, rfl⟩ := delimitedEnd_readCommitment.parse_truncated (s := s) (t := t)
      ⟨henc, ht⟩ hcut
    exact ⟨offset, hs⟩
  · rintro _ ⟨rest, rfl⟩ hne
    have hrest : rest ≠ [] := by
      rintro rfl
      exact hne (List.append_nil _)
    exact delimitedEnd_readCommitment.parse_trailing ⟨henc, rfl⟩ hrest

/-- A release of five units. -/
def sample : PublicCommitment :=
  ⟨.solana, [3], 1, [1], [2], .native, [], 5, .zero 32, .success .conditionsMet⟩

theorem journal_prefix_free_sample :
    (∃ offset, fromJournalBytes (sample.layout.take 50) = .error (.error (.truncated offset))) ∧
      fromJournalBytes (sample.layout ++ [0]) = .error (.error (.trailingBytes 88)) := by
  have hsample : fromJournalBytes sample.layout = .ok sample := by
    refine fromJournalBytes_iff.mpr ⟨⟨?_, ?_, ?_, ?_, ?_⟩, rfl⟩
    all_goals norm_num [sample]
  obtain ⟨hcut, hgoesOn⟩ := journal_prefix_free sample.layout sample hsample
  exact ⟨hcut _ (List.take_prefix _ _) (by decide), hgoesOn _ (List.prefix_append _ _) (by decide)⟩

end PublicCommitment

end Zescrow
