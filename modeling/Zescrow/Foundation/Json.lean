import Mathlib.Data.List.Chain
import Zescrow.Foundation.Decimal

/-!
# JSON values and their texts

`Text` relates a value to the texts it may be printed as, with some characters kept as they are
inside strings. Two such characters then follow each other in a text exactly where they do in one of
its strings (`Text.avoids_iff`): outside of the strings the first of the two does not occur, a
string ends with its quote, and an escape starts with a backslash.
-/

namespace Foundation

namespace Json

/-- The characters of numbers. -/
def literalChars : List Char := "0123456789+-.eE".toList

/-- A number as it is written. -/
structure Literal where
  chars : List Char
  mem_literalChars : ∀ c ∈ chars, c ∈ literalChars

/-- The literal of a natural number. -/
def Literal.ofNat (n : ℕ) : Literal where
  chars := Decimal.numeral n
  mem_literalChars c hc := by
    have hsub : Decimal.alphabet.chars ⊆ literalChars := by decide
    exact hsub (Decimal.isDigits_numeral n c hc)

end Json

/-- A JSON value. -/
inductive Json where
  | null
  | bool (b : Bool)
  | number (literal : Json.Literal)
  | string (s : List Char)
  | array (items : List Json)
  | object (members : List (List Char × Json))

namespace Json

/-! ## The strings of a value -/

section

variable (P : List Char → Prop)

mutual

/-- Every string of the value, keys included, satisfies `P`. -/
def All : Json → Prop
  | .null => True
  | .bool _ => True
  | .number _ => True
  | .string s => P s
  | .array items => AllItems items
  | .object members => AllMembers members

def AllItems : List Json → Prop
  | [] => True
  | v :: items => All v ∧ AllItems items

def AllMembers : List (List Char × Json) → Prop
  | [] => True
  | (key, v) :: members => P key ∧ All v ∧ AllMembers members

end

end

theorem allItems_iff {P : List Char → Prop} {items : List Json} :
    AllItems P items ↔ ∀ v ∈ items, v.All P := by
  induction items with
  | nil => simp [AllItems]
  | cons v items ih => rw [AllItems, ih, List.forall_mem_cons]

/-! ## Nesting -/

mutual

/-- How many brackets are open in the innermost part of a value. -/
def depth : Json → ℕ
  | .null => 0
  | .bool _ => 0
  | .number _ => 0
  | .string _ => 0
  | .array items => depthItems items + 1
  | .object members => depthMembers members + 1

def depthItems : List Json → ℕ
  | [] => 0
  | v :: items => max (depth v) (depthItems items)

def depthMembers : List (List Char × Json) → ℕ
  | [] => 0
  | (_, v) :: members => max (depth v) (depthMembers members)

end

theorem depthItems_le_iff {items : List Json} {n : ℕ} :
    depthItems items ≤ n ↔ ∀ v ∈ items, v.depth ≤ n := by
  induction items with
  | nil => simp [depthItems]
  | cons v items ih => rw [depthItems, max_le_iff, ih, List.forall_mem_cons]

theorem depthMembers_le_iff {members : List (List Char × Json)} {n : ℕ} :
    depthMembers members ≤ n ↔ ∀ m ∈ members, m.2.depth ≤ n := by
  induction members with
  | nil => simp [depthMembers]
  | cons m members ih => rw [depthMembers, max_le_iff, ih, List.forall_mem_cons]

theorem depth_lt_array {items : List Json} {v : Json} (h : v ∈ items) :
    v.depth < (array items).depth :=
  Nat.lt_succ_of_le (depthItems_le_iff.mp le_rfl v h)

theorem depth_lt_object {members : List (List Char × Json)} {m : List Char × Json}
    (h : m ∈ members) : m.2.depth < (object members).depth :=
  Nat.lt_succ_of_le (depthMembers_le_iff.mp le_rfl m h)

/-! ## Texts -/

/-- What may stand between the parts of a text. -/
def IsSeparator (w : List Char) : Prop := ∀ c ∈ w, c ∈ [' ', '\n', '\r', '\t', ',', ':']

section

variable (V : List Char)

/-- A string as it stands between its quotes: the characters of `V` as they are, others as they are
or behind a backslash, in a form without characters of `V`. -/
inductive Quoted : List Char → List Char → Prop
  | nil : Quoted [] []
  | verbatim {c s q} (h : Quoted s q) : Quoted (c :: s) (c :: q)
  | escaped {c e s q} (hc : c ∉ V) (he : ∀ d ∈ e, d ∉ V) (h : Quoted s q) :
      Quoted (c :: s) ('\\' :: (e ++ q))

mutual

/-- `t` is a text of a value. Where commas and colons are required is not looked at, so there are
more texts than JSON allows. -/
inductive Text : Json → List Char → Prop
  | null : Text .null ['n', 'u', 'l', 'l']
  | true : Text (.bool true) ['t', 'r', 'u', 'e']
  | false : Text (.bool false) ['f', 'a', 'l', 's', 'e']
  | number (l) : Text (.number l) l.chars
  | string {s q} (h : Quoted V s q) : Text (.string s) ('"' :: (q ++ ['"']))
  | array {items t} (h : Items items t) : Text (.array items) ('[' :: (t ++ [']']))
  | object {members t} (h : Members members t) : Text (.object members) ('{' :: (t ++ ['}']))

inductive Items : List Json → List Char → Prop
  | nil {w} (hw : IsSeparator w) : Items [] w
  | cons {v items w t s} (hw : IsSeparator w) (h : Text v t) (hs : Items items s) :
      Items (v :: items) (w ++ (t ++ s))

inductive Members : List (List Char × Json) → List Char → Prop
  | nil {w} (hw : IsSeparator w) : Members [] w
  | cons {key v members w q w' t s} (hw : IsSeparator w) (hkey : Quoted V key q)
      (hw' : IsSeparator w') (h : Text v t) (hs : Members members s) :
      Members ((key, v) :: members) (w ++ ('"' :: (q ++ ['"']) ++ (w' ++ (t ++ s))))

end

end

theorem Text.getLast?_object {V : List Char} {members : List (List Char × Json)} {t : List Char}
    (h : Text V (.object members) t) : t.getLast? = some '}' := by
  cases h with
  | object h => rw [List.getLast?_cons, List.getLast?_concat, Option.getD_some]

/-! ## Two characters, one after the other -/

section

variable (a b : Char)

/-- `a` and `b` nowhere follow each other. -/
def Avoids (t : List Char) : Prop := t.IsChain fun x y ↦ ¬(x = a ∧ y = b)

theorem avoids_iff {t : List Char} : Avoids a b t ↔ ¬[a, b] <:+: t := by
  rw [Avoids, List.isChain_iff_forall_rel_of_append_cons_cons]
  constructor
  · rintro h ⟨l, l', rfl⟩
    have heq : l ++ [a, b] ++ l' = l ++ a :: b :: l' := List.append_assoc _ _ _
    exact h heq ⟨rfl, rfl⟩
  · rintro h x y l l' rfl ⟨rfl, rfl⟩
    exact h ⟨l, l', List.append_assoc _ _ _⟩

/-- `t` does not end with `a`, and avoids the pair exactly if `P`. -/
structure AvoidsIff (t : List Char) (P : Prop) : Prop where
  getLast? : t.getLast? ≠ some a
  avoids : Avoids a b t ↔ P

variable {a b}

theorem AvoidsIff.congr {t : List Char} {P Q : Prop} (h : AvoidsIff a b t P) (hPQ : P ↔ Q) :
    AvoidsIff a b t Q := ⟨h.getLast?, h.avoids.trans hPQ⟩

/-- Where the first part does not end with `a`, no pair starts in it and ends in the second. -/
theorem AvoidsIff.append {s t : List Char} {P Q : Prop} (hs : AvoidsIff a b s P)
    (ht : AvoidsIff a b t Q) : AvoidsIff a b (s ++ t) (P ∧ Q) := by
  constructor
  · rw [List.getLast?_append]
    have hlast := ht.getLast?
    cases hx : t.getLast? with
    | none => exact hs.getLast?
    | some x => rwa [hx] at hlast
  · have hseam : ∀ x ∈ s.getLast?, ∀ y ∈ t.head?, ¬(x = a ∧ y = b) := by
      rintro x hx y - ⟨rfl, -⟩
      exact hs.getLast? hx
    rw [Avoids, List.isChain_append, and_iff_left_of_imp (a := t.IsChain _) fun _ ↦ hseam]
    exact and_congr hs.avoids ht.avoids

theorem AvoidsIff.after {s t : List Char} {Q : Prop} (hs : AvoidsIff a b s True)
    (ht : AvoidsIff a b t Q) : AvoidsIff a b (s ++ t) Q := by
  have h := hs.append ht
  rwa [true_and] at h

theorem avoidsIff_of_not_mem {t : List Char} (h : a ∉ t) : AvoidsIff a b t True := by
  refine ⟨fun hlast ↦ h (List.mem_of_getLast? hlast), iff_true_intro ?_⟩
  rw [avoids_iff]
  rintro ⟨l₁, l₂, rfl⟩
  exact h (by simp)

/-- The pair is verbatim, and its first character stands in strings only. -/
structure Inner (V : List Char) (a b : Char) : Prop where
  left : a ∈ V
  right : b ∈ V
  outside : a ∉ ['{', '}', '[', ']', '"', '\\', ' ', '\n', '\r', '\t', ',', ':']
  outside_word : a ∉ ['n', 'u', 'l', 't', 'r', 'e', 'f', 'a', 's']
  outside_number : a ∉ literalChars
  right_ne : b ≠ '"' ∧ b ≠ '\\'

variable {V : List Char}

/-- Quoting changes neither where the pair is, nor whether the second character comes first. -/
theorem Quoted.avoids_iff (hab : Inner V a b) {s q : List Char} (h : Quoted V s q) :
    (Avoids a b q ↔ Avoids a b s) ∧ (q.head? = some b ↔ s.head? = some b) := by
  have hcons (c : Char) (l : List Char) :
      Avoids a b (c :: l) ↔ ¬(c = a ∧ l.head? = some b) ∧ Avoids a b l := by
    rw [Avoids, List.isChain_cons]
    refine and_congr_left' ⟨fun h ⟨hc, hl⟩ ↦ h b hl ⟨hc, rfl⟩, ?_⟩
    rintro h y hy ⟨hc, rfl⟩
    exact h ⟨hc, hy⟩
  induction h with
  | nil => exact ⟨Iff.rfl, Iff.rfl⟩
  | verbatim h ih =>
    refine ⟨?_, Iff.rfl⟩
    rw [hcons, hcons, ih.1, ih.2]
  | @escaped c e s q hc he h ih =>
    have hca : c ≠ a := fun heq ↦ hc (heq ▸ hab.left)
    have hcb : c ≠ b := fun heq ↦ hc (heq ▸ hab.right)
    have hmem : a ∉ '\\' :: e := by
      intro hmem
      rcases List.mem_cons.mp hmem with rfl | hmem
      · exact hab.outside (by simp)
      · exact he a hmem hab.left
    have hescape := avoidsIff_of_not_mem (b := b) hmem
    constructor
    · have hseam : ∀ x ∈ ('\\' :: e).getLast?, ∀ y ∈ q.head?, ¬(x = a ∧ y = b) := by
        rintro x hx y - ⟨rfl, -⟩
        exact hescape.getLast? hx
      rw [← List.cons_append, Avoids, List.isChain_append,
        and_iff_left_of_imp (a := q.IsChain _) fun _ ↦ hseam, hcons]
      exact (and_iff_right (hescape.avoids.mpr trivial)).trans
        (ih.1.trans (and_iff_right fun h ↦ hca h.1).symm)
    · simp [hab.right_ne.2.symm, hcb]

theorem Quoted.avoidsIff (hab : Inner V a b) {s q : List Char} (h : Quoted V s q) :
    AvoidsIff a b ('"' :: (q ++ ['"'])) (Avoids a b s) := by
  have hquote : a ∉ ['"'] := fun hmem ↦ hab.outside (by
    rw [List.mem_singleton.mp hmem]
    decide)
  have hq : AvoidsIff a b (q ++ ['"']) (Avoids a b s) := by
    constructor
    · rw [List.getLast?_concat]
      exact fun hlast ↦ hquote (by rw [Option.some.inj hlast]; exact List.mem_singleton_self a)
    · have hseam : ∀ x ∈ q.getLast?, ∀ y ∈ ['"'].head?, ¬(x = a ∧ y = b) := by
        rintro x - y hy ⟨-, rfl⟩
        exact hab.right_ne.1 (Option.some.inj hy).symm
      rw [Avoids, List.isChain_append,
        and_iff_left_of_imp (a := ['"'].IsChain _) fun _ ↦ hseam]
      exact (and_iff_left (List.IsChain.singleton _)).trans (h.avoids_iff hab).1
  exact (avoidsIff_of_not_mem hquote).after hq

theorem IsSeparator.avoidsIff (hab : Inner V a b) {w : List Char} (hw : IsSeparator w) :
    AvoidsIff a b w True := by
  have hsub : [' ', '\n', '\r', '\t', ',', ':'] ⊆
      ['{', '}', '[', ']', '"', '\\', ' ', '\n', '\r', '\t', ',', ':'] := by decide
  exact avoidsIff_of_not_mem fun hmem ↦ hab.outside (hsub (hw a hmem))

theorem avoidsIff_word (hab : Inner V a b) {t : List Char}
    (ht : t ⊆ ['n', 'u', 'l', 't', 'r', 'e', 'f', 'a', 's']) : AvoidsIff a b t True :=
  avoidsIff_of_not_mem fun hmem ↦ hab.outside_word (ht hmem)

theorem AvoidsIff.bracketed {t : List Char} {P : Prop} {l r : Char} (hl : l ≠ a) (hr : r ≠ a)
    (h : AvoidsIff a b t P) : AvoidsIff a b (l :: (t ++ [r])) P := by
  have hleft : AvoidsIff a b [l] True :=
    avoidsIff_of_not_mem fun hmem ↦ hl (List.mem_singleton.mp hmem).symm
  have hright : AvoidsIff a b [r] True :=
    avoidsIff_of_not_mem fun hmem ↦ hr (List.mem_singleton.mp hmem).symm
  exact hleft.after ((h.append hright).congr (by rw [and_true]))

mutual

theorem Text.avoidsIff (hab : Inner V a b) : ∀ {v t}, Text V v t →
    AvoidsIff a b t (v.All (Avoids a b))
  | _, _, .null => avoidsIff_word hab (by decide)
  | _, _, .true => avoidsIff_word hab (by decide)
  | _, _, .false => avoidsIff_word hab (by decide)
  | _, _, .number l => avoidsIff_of_not_mem fun hmem ↦
    hab.outside_number (l.mem_literalChars a hmem)
  | _, _, .string h => h.avoidsIff hab
  | _, _, .array h => (Items.avoidsIff hab h).bracketed
      (fun heq ↦ hab.outside (heq ▸ by decide)) (fun heq ↦ hab.outside (heq ▸ by decide))
  | _, _, .object h => (Members.avoidsIff hab h).bracketed
      (fun heq ↦ hab.outside (heq ▸ by decide)) (fun heq ↦ hab.outside (heq ▸ by decide))

theorem Items.avoidsIff (hab : Inner V a b) : ∀ {items t}, Items V items t →
    AvoidsIff a b t (AllItems (Avoids a b) items)
  | _, _, .nil hw => hw.avoidsIff hab
  | _, _, .cons hw h hs =>
    (hw.avoidsIff hab).after ((Text.avoidsIff hab h).append (Items.avoidsIff hab hs))

theorem Members.avoidsIff (hab : Inner V a b) : ∀ {members t}, Members V members t →
    AvoidsIff a b t (AllMembers (Avoids a b) members)
  | _, _, .nil hw => hw.avoidsIff hab
  | _, _, .cons hw hkey hw' h hs =>
    (hw.avoidsIff hab).after ((hkey.avoidsIff hab).append
      ((hw'.avoidsIff hab).after ((Text.avoidsIff hab h).append (Members.avoidsIff hab hs))))

end

/-- **The pair is in a text where it is in one of its strings.** -/
theorem Text.avoids_iff (hab : Inner V a b) {v : Json} {t : List Char} (h : Text V v t) :
    ¬[a, b] <:+: t ↔ v.All fun s ↦ ¬[a, b] <:+: s := by
  have hpred : (fun s ↦ ¬[a, b] <:+: s) = Avoids a b := funext fun s ↦
    propext (Json.avoids_iff a b).symm
  rw [hpred, ← (h.avoidsIff hab).avoids, Json.avoids_iff]

end

/-! ## Printing -/

/-- What follows the backslash of an escaped character. -/
def escape (c : Char) : Option (List Char) :=
  if c = '"' ∨ c = '\\' then some [c]
  else if c.toNat < 32 then
    match c with
    | '\x08' => some ['b']
    | '\t' => some ['t']
    | '\n' => some ['n']
    | '\x0c' => some ['f']
    | '\r' => some ['r']
    | c => some ('u' :: '0' :: '0' :: Hex.encode [UInt8.ofNat c.toNat])
  else none

/-- A string between its quotes. -/
def quote (s : List Char) : List Char :=
  s.flatMap fun c ↦ match escape c with
    | some e => '\\' :: e
    | none => [c]

def lineBreak (depth : ℕ) : List Char := '\n' :: List.replicate (2 * depth) ' '

mutual

/-- Prints a value with one item or member a line, indented by two blanks a level. -/
def pretty (depth : ℕ) : Json → List Char
  | .null => ['n', 'u', 'l', 'l']
  | .bool true => ['t', 'r', 'u', 'e']
  | .bool false => ['f', 'a', 'l', 's', 'e']
  | .number l => l.chars
  | .string s => '"' :: (quote s ++ ['"'])
  | .array items => '[' :: (prettyItems depth [] items ++ [']'])
  | .object members => '{' :: (prettyMembers depth [] members ++ ['}'])

/-- The items left, behind the comma that the earlier ones need. -/
def prettyItems (depth : ℕ) (comma : List Char) : List Json → List Char
  | [] => if comma = [] then [] else lineBreak depth
  | v :: items => comma ++ lineBreak (depth + 1) ++
      (pretty (depth + 1) v ++ prettyItems depth [','] items)

def prettyMembers (depth : ℕ) (comma : List Char) : List (List Char × Json) → List Char
  | [] => if comma = [] then [] else lineBreak depth
  | (key, v) :: members => comma ++ lineBreak (depth + 1) ++ ('"' :: (quote key ++ ['"']) ++
      ([':', ' '] ++ (pretty (depth + 1) v ++ prettyMembers depth [','] members)))

end

section

variable {V : List Char}

/-- No escape touches the characters of `V`. -/
def EscapesNone (V : List Char) : Prop := ∀ c e, escape c = some e → c ∉ V ∧ ∀ d ∈ e, d ∉ V

/-- The characters that escapes are written with. -/
def escapeChars : List Char := "\"\\bfnrtu0123456789abcdef".toList

theorem escape_subset {c : Char} {e : List Char} (he : escape c = some e) : e ⊆ escapeChars := by
  unfold escape at he
  split at he
  · next hc =>
    obtain rfl := Option.some.inj he
    rcases hc with rfl | rfl
    · decide
    · decide
  split at he
  · split at he <;> obtain rfl := Option.some.inj he
    · decide
    · decide
    · decide
    · decide
    · decide
    · have hhex : Hex.alphabet.chars ⊆ escapeChars := by decide
      have hcode : ∀ b, Hex.encode b ⊆ escapeChars := fun b _ hd ↦ hhex (Hex.mem_alphabet hd)
      have hu : ['u', '0', '0'] ⊆ escapeChars := by decide
      exact List.append_subset.mpr ⟨hu, hcode _⟩
  · exact absurd he.symm (Option.some_ne_none e)

theorem escape_isSome {c : Char} {e : List Char} (he : escape c = some e) :
    c.toNat < 32 ∨ c ∈ escapeChars := by
  unfold escape at he
  split at he
  · next hc =>
    rcases hc with rfl | rfl
    · exact .inr (by decide)
    · exact .inr (by decide)
  split at he
  · next hc => exact .inl hc
  · exact absurd he.symm (Option.some_ne_none e)

theorem escapesNone_of (hprinted : ∀ d ∈ V, 32 ≤ d.toNat) (hV : ∀ d ∈ V, d ∉ escapeChars) :
    EscapesNone V := by
  intro c e he
  refine ⟨fun hmem ↦ ?_, fun d hd hmem ↦ hV d hmem (escape_subset he hd)⟩
  rcases escape_isSome he with hc | hc
  · exact absurd (hprinted c hmem) (Nat.not_le.mpr hc)
  · exact hV c hmem hc

theorem quoted_quote (hV : EscapesNone V) (s : List Char) : Quoted V s (quote s) := by
  induction s with
  | nil => exact .nil
  | cons c s ih =>
    rw [quote, List.flatMap_cons]
    split
    · next e he =>
      obtain ⟨hc, hd⟩ := hV c e he
      exact .escaped hc hd ih
    · exact .verbatim ih

theorem isSeparator_lineBreak (depth : ℕ) : IsSeparator (lineBreak depth) := by
  intro c hc
  rcases List.mem_cons.mp hc with rfl | hc
  · decide
  · rw [List.eq_of_mem_replicate hc]
    decide

theorem isSeparator_end (depth : ℕ) (comma : List Char) :
    IsSeparator (if comma = [] then [] else lineBreak depth) := by
  split
  · exact fun c hc ↦ absurd hc List.not_mem_nil
  · exact isSeparator_lineBreak depth

theorem isSeparator_begin {comma : List Char} (h : comma ⊆ [',']) (depth : ℕ) :
    IsSeparator (comma ++ lineBreak depth) := by
  intro c hc
  rcases List.mem_append.mp hc with hc | hc
  · rw [List.mem_singleton.mp (h hc)]
    decide
  · exact isSeparator_lineBreak depth c hc

mutual

theorem text_pretty (hV : EscapesNone V) (depth : ℕ) : ∀ v : Json, Text V v (v.pretty depth)
  | .null => .null
  | .bool true => .true
  | .bool false => .false
  | .number l => .number l
  | .string s => .string (quoted_quote hV s)
  | .array items => .array (items_pretty hV depth (List.nil_subset _) items)
  | .object members => .object (members_pretty hV depth (List.nil_subset _) members)

theorem items_pretty (hV : EscapesNone V) (depth : ℕ) {comma : List Char} (h : comma ⊆ [',']) :
    ∀ items, Items V items (prettyItems depth comma items)
  | [] => .nil (isSeparator_end depth comma)
  | v :: items => .cons (isSeparator_begin h _) (text_pretty hV _ v)
      (items_pretty hV depth (List.Subset.refl _) items)

theorem members_pretty (hV : EscapesNone V) (depth : ℕ) {comma : List Char} (h : comma ⊆ [',']) :
    ∀ members, Members V members (prettyMembers depth comma members)
  | [] => .nil (isSeparator_end depth comma)
  | (key, v) :: members => .cons (isSeparator_begin h _) (quoted_quote hV key)
      (List.forall_iff_forall_mem.mp (by decide)) (text_pretty hV _ v)
      (members_pretty hV depth (List.Subset.refl _) members)

end

end

end Json

end Foundation
