import Zescrow.Foundation.Bytes
import Zescrow.Foundation.Outcome

/-!
# Cursor parsers

A parser walks a cursor forward over a byte string and may fail. What a parser accepts is described
by a relation `E` between values and byte strings, "`b` is an encoding of `a`", and `Exact p E`
says that `p` accepts exactly the encodings `E` allows: it returns `a` if and only if the input
goes on with an encoding of `a`, and then it has consumed that encoding and nothing more. A parser
whose offset may overflow is exact at the offsets where it does not; that is `ExactAt`.

One relation therefore gives both halves of a round trip. Read from right to left it says that
what is encoded is parsed back; read from left to right, that what is accepted is canonical.

`ExactEnd` is the same judgement for a parser that also checks that the input ends there.
Sequencing composes the relations by `Seq`, so the description of a format is assembled in the
order in which its parser reads it.
-/

namespace Foundation

/-- A position in a byte string. -/
structure Cursor where
  /-- The whole input. -/
  bytes : Bytes
  /-- How much of it has been read. -/
  offset : ℕ

/-- A fallible computation that advances a cursor. -/
abbrev Parser (ε : Type) : Type → Type := StateT Cursor (Except ε)

namespace Parser

variable {ε α β : Type}

/-- The next `n` bytes; `short` is the failure, at the current offset, when there are not that
many. -/
def take (short : ℕ → ε) (n : ℕ) : Parser ε Bytes := fun c ↦
  if c.offset + n ≤ c.bytes.length then
    .ok ((c.bytes.drop c.offset).take n, ⟨c.bytes, c.offset + n⟩)
  else .error (short c.offset)

/-- The next `n` bytes as an array. -/
def takeFixed (short : ℕ → ε) (n : ℕ) : Parser ε (FixedBytes n) := fun c ↦
  if h : c.offset + n ≤ c.bytes.length then
    .ok (⟨(c.bytes.drop c.offset).take n, by rw [List.length_take, List.length_drop]; omega⟩,
      ⟨c.bytes, c.offset + n⟩)
  else .error (short c.offset)

/-- Succeeds only at the end of the input. -/
def finish (trailing : ℕ → ε) : Parser ε Unit := fun c ↦
  if c.offset = c.bytes.length then .ok ((), c) else .error (trailing c.offset)

/-- Fails without reading. -/
def fail (e : ε) : Parser ε α := fun _ ↦ .error e

/-- Succeeds, reading nothing, exactly when `c` holds. -/
def check (c : Prop) [Decidable c] (e : ε) : Parser ε Unit := if c then pure () else fail e

/-- The value parsed from the start of `b`. -/
def parse (p : Parser ε α) (b : Bytes) : Except ε α := (p ⟨b, 0⟩).map Prod.fst

/-! ## The two judgements -/

/-- From offset `i` on, `p` returns `a` exactly when the input goes on with an encoding of `a`,
which it consumes. -/
def ExactAt (i : ℕ) (p : Parser ε α) (E : α → Bytes → Prop) : Prop :=
  ∀ (pre s : Bytes), pre.length = i → ∀ (a : α) (c : Cursor), p ⟨pre ++ s, i⟩ = .ok (a, c) ↔
    ∃ b rest, s = b ++ rest ∧ E a b ∧ c = ⟨pre ++ s, i + b.length⟩

/-- `ExactAt` every offset. -/
def Exact (p : Parser ε α) (E : α → Bytes → Prop) : Prop := ∀ i, ExactAt i p E

/-- From offset `i` on, `p` returns `a` exactly when the rest of the input is an encoding of `a`. -/
def ExactEndAt (i : ℕ) (p : Parser ε α) (E : α → Bytes → Prop) : Prop :=
  ∀ (pre s : Bytes), pre.length = i → ∀ (a : α) (c : Cursor), p ⟨pre ++ s, i⟩ = .ok (a, c) ↔
    E a s ∧ c = ⟨pre ++ s, i + s.length⟩

/-- `ExactEndAt` every offset. -/
def ExactEnd (p : Parser ε α) (E : α → Bytes → Prop) : Prop := ∀ i, ExactEndAt i p E

/-- An encoding of `y` that starts with an encoding of some `a`. -/
def Seq (E : α → Bytes → Prop) (F : α → β → Bytes → Prop) (y : β) (s : Bytes) : Prop :=
  ∃ a b t, s = b ++ t ∧ E a b ∧ F a y t

/-- Sequencing after a value `a` that is written as `enc a` when it is valid. -/
theorem seq_iff {P : α → Prop} {enc : α → Bytes} {F : α → β → Bytes → Prop} {y : β} {s : Bytes} :
    Seq (fun x b ↦ P x ∧ b = enc x) F y s ↔ ∃ a t, s = enc a ++ t ∧ P a ∧ F a y t := by
  constructor
  · rintro ⟨a, b, t, rfl, ⟨hP, rfl⟩, hF⟩
    exact ⟨a, t, rfl, hP, hF⟩
  · rintro ⟨a, t, rfl, hP, hF⟩
    exact ⟨a, _, t, rfl, ⟨hP, rfl⟩, hF⟩

theorem bind_apply (p : Parser ε α) (f : α → Parser ε β) (c : Cursor) :
    (p >>= f) c = (p c >>= fun ac ↦ f ac.1 ac.2) := rfl

theorem ExactAt.congr {i : ℕ} {p : Parser ε α} {E F : α → Bytes → Prop} (h : ExactAt i p E)
    (hEF : ∀ a b, E a b ↔ F a b) : ExactAt i p F := by
  have hE : E = F := funext fun a ↦ funext fun b ↦ propext (hEF a b)
  exact hE ▸ h

theorem Exact.congr {p : Parser ε α} {E F : α → Bytes → Prop} (h : Exact p E)
    (hEF : ∀ a b, E a b ↔ F a b) : Exact p F := fun i ↦ (h i).congr hEF

theorem ExactEndAt.congr {i : ℕ} {p : Parser ε α} {E F : α → Bytes → Prop}
    (h : ExactEndAt i p E) (hEF : ∀ a b, E a b ↔ F a b) : ExactEndAt i p F := by
  have hE : E = F := funext fun a ↦ funext fun b ↦ propext (hEF a b)
  exact hE ▸ h

theorem ExactEnd.congr {p : Parser ε α} {E F : α → Bytes → Prop} (h : ExactEnd p E)
    (hEF : ∀ a b, E a b ↔ F a b) : ExactEnd p F := fun i ↦ (h i).congr hEF

theorem exact_pure (a : α) : Exact (pure a : Parser ε α) fun x b ↦ x = a ∧ b = [] := by
  intro i pre s _ x c
  change (.ok (a, _) : Except ε (α × Cursor)) = .ok (x, c) ↔ _
  constructor
  · intro h
    obtain ⟨rfl, rfl⟩ := Prod.mk.inj (Except.ok.inj h)
    exact ⟨[], s, rfl, ⟨rfl, rfl⟩, rfl⟩
  · rintro ⟨b, rest, -, ⟨rfl, rfl⟩, rfl⟩
    rfl

theorem exact_fail_of {e : ε} {E : α → Bytes → Prop} (h : ∀ a b, ¬E a b) :
    Exact (fail e : Parser ε α) E := by
  intro i pre s _ x c
  exact ⟨fun h' ↦ absurd h' error_ne_ok, fun ⟨b, _, _, hE, _⟩ ↦ absurd hE (h x b)⟩

theorem exact_check (c : Prop) [Decidable c] (e : ε) :
    Exact (check c e) fun _ b ↦ c ∧ b = [] := by
  by_cases h : c
  · rw [check, if_pos h]
    exact (exact_pure ()).congr fun _ _ ↦ by simp [h]
  · rw [check, if_neg h]
    exact exact_fail_of fun _ _ h' ↦ h h'.1

theorem exact_take (short : ℕ → ε) (n : ℕ) :
    Exact (take short n) fun x b ↦ x = b ∧ b.length = n := by
  rintro i pre s rfl x c
  have hdrop : (pre ++ s).drop pre.length = s := List.drop_left
  simp only [take, hdrop, List.length_append, Nat.add_le_add_iff_left]
  constructor
  · intro h
    split at h
    · next hn =>
      obtain ⟨rfl, rfl⟩ := Prod.mk.inj (Except.ok.inj h)
      refine ⟨s.take n, s.drop n, (List.take_append_drop n s).symm, ⟨rfl, ?_⟩, ?_⟩
      · exact List.length_take_of_le hn
      · rw [List.length_take_of_le hn]
    · exact absurd h error_ne_ok
  · rintro ⟨b, rest, rfl, ⟨rfl, rfl⟩, rfl⟩
    rw [if_pos (by rw [List.length_append]; omega), List.take_left]

theorem takeFixed_eq_ok {short : ℕ → ε} {n : ℕ} {x : FixedBytes n} {c c' : Cursor} :
    takeFixed short n c = .ok (x, c') ↔ take short n c = .ok (x.1, c') := by
  rw [takeFixed, take]
  split
  · rw [Except.ok.injEq, Except.ok.injEq, Prod.mk.injEq, Prod.mk.injEq, Subtype.ext_iff]
  · exact iff_of_false error_ne_ok error_ne_ok

theorem exact_takeFixed (short : ℕ → ε) (n : ℕ) :
    Exact (takeFixed short n) fun x b ↦ True ∧ b = x.1 := by
  intro i pre s hpre x c
  rw [takeFixed_eq_ok, exact_take short n i pre s hpre]
  constructor
  · rintro ⟨b, rest, hs, ⟨rfl, -⟩, hc⟩
    exact ⟨_, rest, hs, ⟨trivial, rfl⟩, hc⟩
  · rintro ⟨_, rest, hs, ⟨-, rfl⟩, hc⟩
    exact ⟨_, rest, hs, ⟨rfl, x.2⟩, hc⟩

theorem ExactAt.bind_eq_ok {i : ℕ} {p : Parser ε α} {f : α → Parser ε β} {E : α → Bytes → Prop}
    (hp : ExactAt i p E) {pre s : Bytes} (hpre : pre.length = i) {y : β} {c : Cursor} :
    (p >>= f) ⟨pre ++ s, i⟩ = .ok (y, c) ↔ ∃ a b t, s = b ++ t ∧ E a b ∧
      f a ⟨(pre ++ b) ++ t, i + b.length⟩ = .ok (y, c) := by
  rw [bind_apply, Foundation.bind_eq_ok]
  constructor
  · rintro ⟨⟨a, c'⟩, hpa, hfa⟩
    obtain ⟨b, t, rfl, hE, rfl⟩ := (hp pre s hpre a c').mp hpa
    rw [← List.append_assoc] at hfa
    exact ⟨a, b, t, rfl, hE, hfa⟩
  · rintro ⟨a, b, t, rfl, hE, hfa⟩
    rw [List.append_assoc] at hfa
    exact ⟨(a, _), (hp _ _ hpre _ _).mpr ⟨b, t, rfl, hE, rfl⟩, hfa⟩

theorem exactAt_bind {i : ℕ} {p : Parser ε α} {f : α → Parser ε β} {E : α → Bytes → Prop}
    {F : α → β → Bytes → Prop} (hp : ExactAt i p E)
    (hf : ∀ a b, E a b → ExactAt (i + b.length) (f a) (F a)) :
    ExactAt i (p >>= f) (Seq E F) := by
  intro pre s hpre y c
  have hlen (b : Bytes) : (pre ++ b).length = i + b.length := by rw [List.length_append, hpre]
  rw [hp.bind_eq_ok hpre]
  constructor
  · rintro ⟨a, b, t, rfl, hE, hfa⟩
    obtain ⟨b', rest, rfl, hF, rfl⟩ := (hf a b hE (pre ++ b) t (hlen b) y c).mp hfa
    refine ⟨b ++ b', rest, (List.append_assoc _ _ _).symm, ⟨a, b, b', rfl, hE, hF⟩, ?_⟩
    simp [Nat.add_assoc]
  · rintro ⟨_, rest, rfl, ⟨a, b, b', rfl, hE, hF⟩, rfl⟩
    refine ⟨a, b, b' ++ rest, List.append_assoc _ _ _, hE, ?_⟩
    have h := (hf a b hE (pre ++ b) (b' ++ rest) (hlen b) y _).mpr ⟨b', rest, rfl, hF, rfl⟩
    simpa [Nat.add_assoc] using h

theorem exact_bind {p : Parser ε α} {f : α → Parser ε β} {E : α → Bytes → Prop}
    {F : α → β → Bytes → Prop} (hp : Exact p E) (hf : ∀ a, Exact (f a) (F a)) :
    Exact (p >>= f) (Seq E F) := fun i ↦ exactAt_bind (hp i) fun a _ _ ↦ hf a _

theorem exactEndAt_bind {i : ℕ} {p : Parser ε α} {f : α → Parser ε β} {E : α → Bytes → Prop}
    {F : α → β → Bytes → Prop} (hp : ExactAt i p E)
    (hf : ∀ a b, E a b → ExactEndAt (i + b.length) (f a) (F a)) :
    ExactEndAt i (p >>= f) (Seq E F) := by
  intro pre s hpre y c
  have hlen (b : Bytes) : (pre ++ b).length = i + b.length := by rw [List.length_append, hpre]
  rw [hp.bind_eq_ok hpre]
  constructor
  · rintro ⟨a, b, t, rfl, hE, hfa⟩
    obtain ⟨hF, rfl⟩ := (hf a b hE (pre ++ b) t (hlen b) y c).mp hfa
    refine ⟨⟨a, b, t, rfl, hE, hF⟩, ?_⟩
    simp [Nat.add_assoc]
  · rintro ⟨⟨a, b, t, rfl, hE, hF⟩, rfl⟩
    refine ⟨a, b, t, rfl, hE, ?_⟩
    have h := (hf a b hE (pre ++ b) t (hlen b) y _).mpr ⟨hF, rfl⟩
    simpa [Nat.add_assoc] using h

theorem exactEnd_bind {p : Parser ε α} {f : α → Parser ε β} {E : α → Bytes → Prop}
    {F : α → β → Bytes → Prop} (hp : Exact p E) (hf : ∀ a, ExactEnd (f a) (F a)) :
    ExactEnd (p >>= f) (Seq E F) := fun i ↦ exactEndAt_bind (hp i) fun a _ _ ↦ hf a _

/-- A format ends with a check that nothing follows. -/
theorem exactEnd_finish (trailing : ℕ → ε) :
    ExactEnd (finish trailing) fun _ s ↦ s = [] := by
  rintro i pre s rfl x c
  simp only [finish, List.length_append]
  constructor
  · intro h
    split at h
    · next hlen =>
      obtain ⟨-, rfl⟩ := Prod.mk.inj (Except.ok.inj h)
      exact ⟨List.length_eq_zero_iff.mp (by omega), congrArg (Cursor.mk _) hlen⟩
    · exact absurd h error_ne_ok
  · rintro ⟨rfl, rfl⟩
    exact if_pos rfl

theorem exactEnd_bind_pure {p : Parser ε Unit} {E : Bytes → Prop} (a : α)
    (hp : ExactEnd p fun _ s ↦ E s) :
    ExactEnd (p >>= fun _ ↦ (pure a : Parser ε α)) fun x s ↦ x = a ∧ E s := by
  intro i pre s hpre x c
  rw [bind_apply, bind_eq_ok]
  constructor
  · rintro ⟨⟨_, c'⟩, hpc, hpure⟩
    obtain ⟨rfl, rfl⟩ := Prod.mk.inj (Except.ok.inj hpure)
    obtain ⟨hE, hc⟩ := (hp i pre s hpre () c').mp hpc
    exact ⟨⟨rfl, hE⟩, hc⟩
  · rintro ⟨⟨rfl, hE⟩, rfl⟩
    exact ⟨((), _), (hp i pre s hpre () _).mpr ⟨hE, rfl⟩, rfl⟩

/-- **Both halves of a round trip at once.** A parser for a whole input accepts `s` as `a` exactly
when `s` is an encoding of `a`. -/
theorem ExactEndAt.parse_eq_ok {p : Parser ε α} {E : α → Bytes → Prop} (h : ExactEndAt 0 p E)
    {s : Bytes} {a : α} : p.parse s = .ok a ↔ E a s := by
  have hp := h [] s rfl a ⟨s, s.length⟩
  simp only [List.nil_append, Nat.zero_add, and_true] at hp
  rw [← hp, parse]
  cases hr : p ⟨s, 0⟩ with
  | error e => simp [Except.map]
  | ok r =>
    obtain ⟨x, c⟩ := r
    obtain ⟨-, hc⟩ := (h [] s rfl x c).mp hr
    simp only [List.nil_append, Nat.zero_add] at hc
    subst hc
    simp [Except.map]

/-- A parser that need not reach the end accepts what starts with an encoding. -/
theorem ExactAt.parse_eq_ok {p : Parser ε α} {E : α → Bytes → Prop} (h : ExactAt 0 p E)
    {s : Bytes} {a : α} : p.parse s = .ok a ↔ ∃ b rest, s = b ++ rest ∧ E a b := by
  rw [parse]
  constructor
  · intro hs
    cases hp : p ⟨s, 0⟩ with
    | error e =>
      rw [hp] at hs
      exact absurd hs error_ne_ok
    | ok r =>
      obtain ⟨x, c⟩ := r
      rw [hp] at hs
      obtain rfl : x = a := Except.ok.inj hs
      obtain ⟨b, rest, hb, hE, -⟩ := (h [] s rfl x c).mp hp
      exact ⟨b, rest, hb, hE⟩
  · rintro ⟨b, rest, hb, hE⟩
    have hp := (h [] s rfl a _).mpr ⟨b, rest, hb, hE, rfl⟩
    rw [List.nil_append] at hp
    rw [hp]
    rfl

/-! ## Inputs that are cut short or go on -/

/-- On an encoding that is cut short, `p` fails with an error that satisfies `T`. -/
def Truncates (T : ε → Prop) (p : Parser ε α) (E : α → Bytes → Prop) : Prop :=
  ∀ (pre s t : Bytes) (a : α), E a (s ++ t) → t ≠ [] →
    ∃ e, p ⟨pre ++ s, pre.length⟩ = .error e ∧ T e

/-- On an encoding that something follows, `p` fails where the encoding ends. -/
def Trails (trailing : ℕ → ε) (p : Parser ε α) (E : α → Bytes → Prop) : Prop :=
  ∀ (pre b rest : Bytes) (a : α), E a b → rest ≠ [] →
    p ⟨pre ++ (b ++ rest), pre.length⟩ = .error (trailing (pre.length + b.length))

/-- `Exact`, and cuts are reported by `T`. -/
structure Delimited (T : ε → Prop) (p : Parser ε α) (E : α → Bytes → Prop) : Prop where
  exact : Exact p E
  truncates : Truncates T p E

/-- `ExactEnd`, cuts are reported by `T`, and the end of the encoding by `trailing` when it is not
the end of the input. -/
structure DelimitedEnd (T : ε → Prop) (trailing : ℕ → ε) (p : Parser ε α)
    (E : α → Bytes → Prop) : Prop where
  exact : ExactEnd p E
  truncates : Truncates T p E
  trails : Trails trailing p E

section

variable {T : ε → Prop} {trailing : ℕ → ε}

theorem Delimited.congr {p : Parser ε α} {E F : α → Bytes → Prop} (h : Delimited T p E)
    (hEF : ∀ a b, E a b ↔ F a b) : Delimited T p F :=
  ⟨h.exact.congr hEF, fun pre s t a hF ↦ h.truncates pre s t a ((hEF a _).mpr hF)⟩

theorem DelimitedEnd.congr {p : Parser ε α} {E F : α → Bytes → Prop}
    (h : DelimitedEnd T trailing p E) (hEF : ∀ a b, E a b ↔ F a b) : DelimitedEnd T trailing p F :=
  ⟨h.exact.congr hEF, fun pre s t a hF ↦ h.truncates pre s t a ((hEF a _).mpr hF),
    fun pre b rest a hF ↦ h.trails pre b rest a ((hEF a _).mpr hF)⟩

/-- What reads nothing cannot be cut. -/
theorem Exact.delimited {p : Parser ε α} {E : α → Bytes → Prop} (h : Exact p E)
    (hnil : ∀ a b, E a b → b = []) : Delimited T p E :=
  ⟨h, fun _ _ _ a hE ht ↦ absurd (List.append_eq_nil_iff.mp (hnil a _ hE)).2 ht⟩

theorem delimited_take {short : ℕ → ε} (n : ℕ) (h : ∀ i, T (short i)) :
    Delimited T (take short n) fun x b ↦ x = b ∧ b.length = n := by
  refine ⟨exact_take short n, fun pre s t a ⟨_, hlen⟩ ht ↦ ⟨_, if_neg ?_, h pre.length⟩⟩
  have hpos := List.length_pos_iff.mpr ht
  simp only [List.length_append] at hlen ⊢
  omega

theorem Exact.bind_apply {p : Parser ε α} {f : α → Parser ε β} {E : α → Bytes → Prop}
    (hp : Exact p E) {pre b rest : Bytes} {a : α} (hE : E a b) :
    (p >>= f) ⟨pre ++ (b ++ rest), pre.length⟩ = f a ⟨pre ++ b ++ rest, (pre ++ b).length⟩ := by
  have hpa := (hp pre.length pre (b ++ rest) rfl a _).mpr ⟨b, rest, rfl, hE, rfl⟩
  rw [Parser.bind_apply, hpa, ok_bind, List.append_assoc, List.length_append]

theorem truncates_bind {p : Parser ε α} {f : α → Parser ε β} {E : α → Bytes → Prop}
    {F : α → β → Bytes → Prop} (hp : Delimited T p E) (hf : ∀ a, Truncates T (f a) (F a)) :
    Truncates T (p >>= f) (Seq E F) := by
  rintro pre s t y ⟨a, b, u, heq, hE, hF⟩ ht
  -- The cut is in the second part, at its start at the earliest, or else within the first.
  have hcut : (∃ s', s = b ++ s' ∧ u = s' ++ t) ∨ ∃ t', b = s ++ t' ∧ t' ≠ [] := by
    rcases List.append_eq_append_iff.mp heq with ⟨c, rfl, rfl⟩ | ⟨c, rfl, rfl⟩
    · by_cases hc : c = []
      · subst hc
        exact .inl ⟨[], by rw [List.append_nil, List.append_nil], rfl⟩
      · exact .inr ⟨c, rfl, hc⟩
    · exact .inl ⟨c, rfl, rfl⟩
  rcases hcut with ⟨s', rfl, rfl⟩ | ⟨t', rfl, ht'⟩
  · rw [hp.exact.bind_apply hE]
    exact hf a (pre ++ b) s' t y hF ht
  · obtain ⟨e, he, hT⟩ := hp.truncates pre s t' a hE ht'
    exact ⟨e, by rw [Parser.bind_apply, he, error_bind], hT⟩

theorem delimited_bind {p : Parser ε α} {f : α → Parser ε β} {E : α → Bytes → Prop}
    {F : α → β → Bytes → Prop} (hp : Delimited T p E) (hf : ∀ a, Delimited T (f a) (F a)) :
    Delimited T (p >>= f) (Seq E F) :=
  ⟨exact_bind hp.exact fun a ↦ (hf a).exact, truncates_bind hp fun a ↦ (hf a).truncates⟩

theorem delimitedEnd_bind {p : Parser ε α} {f : α → Parser ε β} {E : α → Bytes → Prop}
    {F : α → β → Bytes → Prop} (hp : Delimited T p E)
    (hf : ∀ a, DelimitedEnd T trailing (f a) (F a)) :
    DelimitedEnd T trailing (p >>= f) (Seq E F) := by
  refine ⟨exactEnd_bind hp.exact fun a ↦ (hf a).exact, truncates_bind hp fun a ↦ (hf a).truncates,
    ?_⟩
  rintro pre _ rest y ⟨a, b, t, rfl, hE, hF⟩ hrest
  rw [List.append_assoc, hp.exact.bind_apply hE, List.append_assoc, ← List.append_assoc pre,
    (hf a).trails (pre ++ b) t rest y hF hrest, List.length_append, List.length_append,
    Nat.add_assoc]

theorem delimitedEnd_finish (a : α) :
    DelimitedEnd T trailing (finish trailing >>= fun _ ↦ (pure a : Parser ε α))
      fun x s ↦ x = a ∧ s = [] := by
  refine ⟨exactEnd_bind_pure a (exactEnd_finish trailing), ?_, ?_⟩
  · rintro pre s t x ⟨-, hnil⟩ ht
    exact absurd (List.append_eq_nil_iff.mp hnil).2 ht
  · rintro pre _ rest x ⟨-, rfl⟩ hrest
    have hpos := List.length_pos_iff.mpr hrest
    have hfinish : finish trailing ⟨pre ++ rest, pre.length⟩ = .error (trailing pre.length) := by
      refine if_neg ?_
      simp only [List.length_append]
      omega
    rw [List.nil_append, Parser.bind_apply, hfinish, error_bind, List.length_nil, Nat.add_zero]

theorem DelimitedEnd.parse_truncated {p : Parser ε α} {E : α → Bytes → Prop}
    (h : DelimitedEnd T trailing p E) {s t : Bytes} {a : α} (hE : E a (s ++ t)) (ht : t ≠ []) :
    ∃ e, p.parse s = .error e ∧ T e := by
  obtain ⟨e, he, hT⟩ := h.truncates [] s t a hE ht
  rw [List.nil_append, List.length_nil] at he
  exact ⟨e, by rw [parse, he]; rfl, hT⟩

theorem DelimitedEnd.parse_trailing {p : Parser ε α} {E : α → Bytes → Prop}
    (h : DelimitedEnd T trailing p E) {b rest : Bytes} {a : α} (hE : E a b) (hrest : rest ≠ []) :
    p.parse (b ++ rest) = .error (trailing b.length) := by
  have he := h.trails [] b rest a hE hrest
  rw [List.nil_append, List.length_nil, Nat.zero_add] at he
  rw [parse, he]
  rfl

end

/-! ## Reading back what was written -/

/-- The next byte. -/
def next (short : ℕ → ε) : Parser ε UInt8 := fun c ↦
  match c.bytes[c.offset]? with
  | some x => .ok (x, ⟨c.bytes, c.offset + 1⟩)
  | none => .error (short c.offset)

/-- `n` values, one after the other. -/
def times : ℕ → Parser ε α → Parser ε (List α)
  | 0, _ => pure []
  | n + 1, p => do
    let a ← p
    let l ← times n p
    pure (a :: l)

/-- In front of anything, `p` reads `b` as `a` and stops right behind it. Unlike an exact parser it
may read other bytes as `a` as well. -/
def Reads (p : Parser ε α) (a : α) (b : Bytes) : Prop := ∀ pre rest : Bytes,
  p ⟨pre ++ (b ++ rest), pre.length⟩ = .ok (a, ⟨pre ++ (b ++ rest), pre.length + b.length⟩)

theorem Exact.reads {p : Parser ε α} {E : α → Bytes → Prop} (hp : Exact p E) {a : α} {b : Bytes}
    (h : E a b) : Reads p a b :=
  fun pre rest ↦ (hp pre.length pre (b ++ rest) rfl a _).mpr ⟨b, rest, rfl, h, rfl⟩

theorem reads_pure (a : α) : Reads (pure a : Parser ε α) a [] := (exact_pure a).reads ⟨rfl, rfl⟩

theorem reads_next (short : ℕ → ε) (x : UInt8) : Reads (next short) x [x] := by
  intro pre rest
  have hget : (pre ++ ([x] ++ rest))[pre.length]? = some x := by
    rw [List.getElem?_append_right le_rfl, Nat.sub_self]
    rfl
  rw [next, hget]
  rfl

theorem Reads.bind {p : Parser ε α} {f : α → Parser ε β} {a : α} {y : β} {b t : Bytes}
    (hp : Reads p a b) (hf : Reads (f a) y t) : Reads (p >>= f) y (b ++ t) := by
  intro pre rest
  have hnext := hf (pre ++ b) rest
  rw [List.append_assoc, List.length_append] at hnext
  rw [List.append_assoc, bind_apply, hp, ok_bind, hnext, List.length_append, Nat.add_assoc]

theorem Reads.bind_pure {p : Parser ε α} {g : α → β} {a : α} {b : Bytes} (hp : Reads p a b) :
    Reads (p >>= fun x ↦ pure (g x)) (g a) b := by
  have h := hp.bind (f := fun x ↦ pure (g x)) (reads_pure (g a))
  rwa [List.append_nil] at h

theorem reads_times {p : Parser ε α} {enc : α → Bytes} {l : List α}
    (h : ∀ a ∈ l, Reads p a (enc a)) : Reads (times l.length p) l (l.flatMap enc) := by
  induction l with
  | nil => exact reads_pure []
  | cons a l ih =>
    have hrest := ih fun a' ha' ↦ h a' (List.mem_cons_of_mem _ ha')
    exact (h a List.mem_cons_self).bind hrest.bind_pure

/-! ## Failures of a known kind -/

/-- Every way `p` can fail, wherever it starts, satisfies `P`. -/
def FailsOnly (P : ε → Prop) (p : Parser ε α) : Prop := ∀ c, Foundation.FailsOnly P (p c)

section

variable {P : ε → Prop}

theorem failsOnly_pure (a : α) : FailsOnly P (pure a : Parser ε α) := fun c ↦ failsOnly_ok (a, c)

theorem failsOnly_fail {e : ε} (h : P e) : FailsOnly P (fail e : Parser ε α) :=
  fun _ ↦ failsOnly_error h

theorem failsOnly_check {c : Prop} [Decidable c] {e : ε} (h : P e) : FailsOnly P (check c e) := by
  rw [check]
  split
  · exact failsOnly_pure ()
  · exact failsOnly_fail h

theorem failsOnly_take {short : ℕ → ε} (n : ℕ) (h : ∀ i, P (short i)) :
    FailsOnly P (take short n) := by
  intro c
  rw [take]
  split
  · exact failsOnly_ok _
  · exact failsOnly_error (h _)

theorem failsOnly_finish {trailing : ℕ → ε} (h : ∀ i, P (trailing i)) :
    FailsOnly P (finish trailing) := by
  intro c
  rw [finish]
  split
  · exact failsOnly_ok _
  · exact failsOnly_error (h _)

theorem failsOnly_bind {p : Parser ε α} {f : α → Parser ε β} (hp : FailsOnly P p)
    (hf : ∀ a, FailsOnly P (f a)) : FailsOnly P (p >>= f) :=
  fun c ↦ Foundation.failsOnly_bind (hp c) fun ac _ ↦ hf ac.1 ac.2

/-- What follows a `take` may rely on the number of bytes taken. -/
theorem failsOnly_take_bind {short : ℕ → ε} {n : ℕ} {f : Bytes → Parser ε β}
    (h : ∀ i, P (short i)) (hf : ∀ s : Bytes, s.length = n → FailsOnly P (f s)) :
    FailsOnly P (take short n >>= f) := by
  intro c
  refine Foundation.failsOnly_bind (failsOnly_take n h c) fun ac hac ↦ ?_
  refine hf ac.1 ?_ ac.2
  rw [take] at hac
  split at hac
  · next hle =>
    obtain rfl := Except.ok.inj hac
    rw [List.length_take, List.length_drop]
    omega
  · exact absurd hac error_ne_ok

/-- `FailsOnly` from offset `i` on, which lies in the input. -/
def FailsOnlyAt (i : ℕ) (P : ε → Prop) (p : Parser ε α) : Prop :=
  ∀ bytes : Bytes, i ≤ bytes.length → Foundation.FailsOnly P (p ⟨bytes, i⟩)

theorem FailsOnly.at {p : Parser ε α} (h : FailsOnly P p) (i : ℕ) : FailsOnlyAt i P p :=
  fun _ _ ↦ h _

/-- The encoding that was read says at which offset the continuation starts. -/
theorem failsOnlyAt_bind {i : ℕ} {p : Parser ε α} {f : α → Parser ε β} {E : α → Bytes → Prop}
    (hx : ExactAt i p E) (hp : FailsOnlyAt i P p)
    (hf : ∀ a b, E a b → FailsOnlyAt (i + b.length) P (f a)) : FailsOnlyAt i P (p >>= f) := by
  intro bytes hi
  refine Foundation.failsOnly_bind (hp bytes hi) fun ⟨a, c⟩ hac ↦ ?_
  have hpre : (bytes.take i).length = i := List.length_take_of_le hi
  have hsplit : bytes.take i ++ bytes.drop i = bytes := List.take_append_drop i bytes
  obtain ⟨b, rest, hb, hE, hc⟩ := (hx _ (bytes.drop i) hpre a c).mp (by rw [hsplit]; exact hac)
  rw [hsplit] at hc
  subst hc
  refine hf a b hE bytes ?_
  have hlen := congrArg List.length hb
  rw [List.length_drop, List.length_append] at hlen
  omega

theorem FailsOnlyAt.parse {p : Parser ε α} (h : FailsOnlyAt 0 P p) (s : Bytes) :
    Foundation.FailsOnly P (p.parse s) := by
  intro e he
  refine h s (Nat.zero_le _) e ?_
  rw [Parser.parse] at he
  cases hp : p ⟨s, 0⟩ with
  | error e' =>
    rw [hp] at he
    exact congrArg Except.error (Except.error.inj he)
  | ok ac =>
    rw [hp] at he
    exact absurd he ok_ne_error

end

end Parser

end Foundation
