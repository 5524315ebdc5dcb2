import Mathlib.Data.List.Basic

/-!
# Texts with references

A text in which a name between an opening and a closing delimiter stands for something else. A
reference starts at an opening delimiter and ends at the next closing one, and the search goes on
behind it; an opening delimiter that nothing closes is ordinary text, with all that follows.

`Template` is what a text says: its references in order, with the text between them. Nothing of the
text is lost (`render_written_parse`), so a rendering that gives every reference back as it was
written gives the text back.
-/

namespace Foundation

variable {α : Type*} [DecidableEq α]

/-- Splits at the first occurrence of `pat`: what stands before it, and what stands behind it. -/
def splitOnce (pat : List α) : List α → Option (List α × List α)
  | [] => if pat = [] then some ([], []) else none
  | x :: s =>
    if pat <+: x :: s then some ([], (x :: s).drop pat.length)
    else (splitOnce pat s).map fun p ↦ (x :: p.1, p.2)

theorem splitOnce_eq_some {pat s a b : List α} (h : splitOnce pat s = some (a, b)) :
    s = a ++ (pat ++ b) := by
  induction s generalizing a b with
  | nil =>
    rw [splitOnce] at h
    split at h
    · next hpat =>
      obtain ⟨rfl, rfl⟩ := Prod.mk.inj (Option.some.inj h)
      rw [hpat, List.append_nil, List.append_nil]
    · exact absurd h.symm (Option.some_ne_none _)
  | cons x s ih =>
    rw [splitOnce] at h
    split at h
    · next hpat =>
      obtain ⟨t, ht⟩ := hpat
      rw [← ht, List.drop_left] at h
      obtain ⟨rfl, rfl⟩ := Prod.mk.inj (Option.some.inj h)
      exact ht.symm
    · obtain ⟨⟨a', b'⟩, hsplit, heq⟩ := Option.map_eq_some_iff.mp h
      obtain ⟨rfl, rfl⟩ := Prod.mk.inj heq
      rw [List.cons_append, ← ih hsplit]

theorem splitOnce_eq_none {pat s : List α} : splitOnce pat s = none ↔ ¬pat <:+: s := by
  induction s with
  | nil =>
    rw [splitOnce, List.infix_nil]
    split
    · next hpat => exact ⟨fun h ↦ absurd h (Option.some_ne_none _), fun h ↦ absurd hpat h⟩
    · next hpat => exact ⟨fun _ ↦ hpat, fun _ ↦ rfl⟩
  | cons x s ih =>
    rw [splitOnce, List.infix_cons_iff]
    split
    · next hpat => exact ⟨fun h ↦ absurd h (Option.some_ne_none _), fun h ↦ absurd (Or.inl hpat) h⟩
    · next hpat => rw [Option.map_eq_none_iff, ih, or_iff_right hpat]

/-- `pat` occurs in `s` between `a` and `b`, and nowhere before. -/
structure FirstAt (pat s a b : List α) : Prop where
  eq : s = a ++ (pat ++ b)
  first : ∀ a' b', s = a' ++ (pat ++ b') → a.length ≤ a'.length

omit [DecidableEq α] in
theorem FirstAt.unique {pat s a b a' b' : List α} (h : FirstAt pat s a b)
    (h' : FirstAt pat s a' b') : a = a' ∧ b = b' := by
  have hlen : a.length = a'.length := Nat.le_antisymm (h.first _ _ h'.eq) (h'.first _ _ h.eq)
  obtain ⟨ha, hb⟩ := List.append_inj (h.eq.symm.trans h'.eq) hlen
  exact ⟨ha, List.append_cancel_left hb⟩

theorem firstAt_of_splitOnce {pat s a b : List α} (h : splitOnce pat s = some (a, b)) :
    FirstAt pat s a b := by
  refine ⟨splitOnce_eq_some h, fun a' b' heq ↦ ?_⟩
  induction s generalizing a a' with
  | nil =>
    have hlen := congrArg List.length (splitOnce_eq_some h)
    simp only [List.length_nil, List.length_append] at hlen
    omega
  | cons x s ih =>
    rw [splitOnce] at h
    split at h
    · obtain ⟨rfl, -⟩ := Prod.mk.inj (Option.some.inj h)
      exact Nat.zero_le _
    · next hno =>
      obtain ⟨⟨a₁, b₁⟩, hsplit, hab⟩ := Option.map_eq_some_iff.mp h
      obtain ⟨rfl, rfl⟩ := Prod.mk.inj hab
      cases a' with
      | nil => exact absurd ⟨b', heq.symm⟩ hno
      | cons y a' =>
        obtain ⟨-, hrest⟩ := List.cons.inj heq
        exact Nat.succ_le_succ (ih hsplit a' hrest)

/-- Splitting finds the first occurrence. -/
theorem splitOnce_eq_some_iff {pat s a b : List α} :
    splitOnce pat s = some (a, b) ↔ FirstAt pat s a b := by
  refine ⟨firstAt_of_splitOnce, fun h ↦ ?_⟩
  cases hsplit : splitOnce pat s with
  | none =>
    refine absurd ⟨a, b, ?_⟩ (splitOnce_eq_none.mp hsplit)
    rw [h.eq, List.append_assoc]
  | some p =>
    obtain ⟨rfl, rfl⟩ := (firstAt_of_splitOnce hsplit).unique h
    rfl

/-! ## Templates -/

/-- Where a reference starts and where it ends. -/
structure Delimiters (α : Type*) where
  opening : List α
  closing : List α
  opening_ne_nil : opening ≠ []

/-- A text cut into its references and what stands between them. -/
inductive Template (α : Type*) where
  | text (s : List α)
  | ref (before name : List α) (rest : Template α)

namespace Template

section

variable (D : Delimiters α)

/-- The template a text is. -/
def parse (s : List α) : Template α :=
  match _h : splitOnce D.opening s with
  | none => .text s
  | some (before, behind) =>
    match _h' : splitOnce D.closing behind with
    | none => .text s
    | some (name, rest) => .ref before name (parse rest)
termination_by s.length
decreasing_by
  have hlen := List.length_pos_iff.mpr D.opening_ne_nil
  rw [splitOnce_eq_some _h, splitOnce_eq_some _h']
  simp only [List.length_append]
  omega

/-- What it is for `s` to be cut into `t`: a reference runs from the first opening delimiter to the
closing one that comes first behind it, and what follows is cut in its turn; an opening delimiter
that nothing closes is text, with all that follows. -/
inductive Splits : List α → Template α → Prop
  | text {s} (h : ¬D.opening <:+: s) : Splits s (.text s)
  | unclosed {s before behind} (h : FirstAt D.opening s before behind)
    (h' : ¬D.closing <:+: behind) : Splits s (.text s)
  | ref {s before behind name rest t} (h : FirstAt D.opening s before behind)
    (h' : FirstAt D.closing behind name rest) (hrest : Splits rest t) :
    Splits s (.ref before name t)

/-- A reference as it is written. -/
def written (name : List α) : List α := D.opening ++ name ++ D.closing

end

/-- The names a template refers to, in order. -/
def names : Template α → List (List α)
  | .text _ => []
  | .ref _ name rest => name :: names rest

/-- The text a template becomes when `f` is put for the references. -/
def render (f : List α → List α) : Template α → List α
  | .text s => s
  | .ref before name rest => before ++ f name ++ render f rest

/-- The text a template becomes when every reference asks `f`, which has a state, for what to put in
its place, one after the other. -/
def expand {σ : Type*} (f : List α → σ → List α × σ) : Template α → σ → List α × σ
  | .text s, st => (s, st)
  | .ref before name rest, st =>
    let (value, st) := f name st
    let (behind, st) := expand f rest st
    (before ++ value ++ behind, st)

omit [DecidableEq α] in
/-- A value that does not depend on the state leaves rendering and folding. -/
theorem expand_eq {σ : Type*} (f : List α → List α) (note : σ → List α → σ) (t : Template α)
    (st : σ) : t.expand (fun name st ↦ (f name, note st name)) st
      = (t.render f, t.names.foldl note st) := by
  induction t generalizing st with
  | text s => rfl
  | ref before name rest ih => simp only [expand, ih, render, names, List.foldl_cons]

omit [DecidableEq α] in
theorem render_congr {f g : List α → List α} {t : Template α}
    (h : ∀ name ∈ t.names, f name = g name) : t.render f = t.render g := by
  induction t with
  | text s => rfl
  | ref before name rest ih =>
    have hrest := ih fun n hn ↦ h n (List.mem_cons_of_mem _ hn)
    rw [render, render, hrest, h name List.mem_cons_self]

variable {D : Delimiters α}

theorem parse_of_no_opening {s : List α} (h : splitOnce D.opening s = none) :
    parse D s = .text s := by
  rw [parse]
  split
  · rfl
  · next hsome => exact absurd (hsome.symm.trans h) (Option.some_ne_none _)

theorem parse_of_unclosed {s before behind : List α}
    (h : splitOnce D.opening s = some (before, behind)) (h' : splitOnce D.closing behind = none) :
    parse D s = .text s := by
  rw [parse]
  split
  · rfl
  · next hsome =>
    obtain ⟨rfl, rfl⟩ := Prod.mk.inj (Option.some.inj (h.symm.trans hsome))
    split
    · rfl
    · next hclosed => exact absurd (hclosed.symm.trans h') (Option.some_ne_none _)

theorem parse_of_ref {s before behind name rest : List α}
    (h : splitOnce D.opening s = some (before, behind))
    (h' : splitOnce D.closing behind = some (name, rest)) :
    parse D s = .ref before name (parse D rest) := by
  rw [parse]
  split
  · next hnone => exact absurd (h.symm.trans hnone) (Option.some_ne_none _)
  · next hsome =>
    obtain ⟨rfl, rfl⟩ := Prod.mk.inj (Option.some.inj (h.symm.trans hsome))
    split
    · next hunclosed => exact absurd (h'.symm.trans hunclosed) (Option.some_ne_none _)
    · next hclosed =>
      obtain ⟨rfl, rfl⟩ := Prod.mk.inj (Option.some.inj (h'.symm.trans hclosed))
      rfl

theorem render_written_parse (s : List α) : (parse D s).render (written D) = s := by
  induction s using parse.induct D with
  | case1 s h => rw [parse_of_no_opening h, render]
  | case2 s before behind h h' => rw [parse_of_unclosed h h', render]
  | case3 s before behind h name rest h' ih =>
    rw [parse_of_ref h h', render, ih, splitOnce_eq_some h, splitOnce_eq_some h', written]
    simp only [List.append_assoc]

/-- The template of a text is the one way to cut it. -/
theorem splits_iff {s : List α} {t : Template α} : Splits D s t ↔ t = parse D s := by
  constructor
  · intro h
    induction h with
    | text h => rw [parse_of_no_opening (splitOnce_eq_none.mpr h)]
    | unclosed h h' =>
      rw [parse_of_unclosed (splitOnce_eq_some_iff.mpr h) (splitOnce_eq_none.mpr h')]
    | ref h h' _ ih =>
      rw [parse_of_ref (splitOnce_eq_some_iff.mpr h) (splitOnce_eq_some_iff.mpr h'), ih]
  · rintro rfl
    induction s using parse.induct D with
    | case1 s h =>
      rw [parse_of_no_opening h]
      exact .text (splitOnce_eq_none.mp h)
    | case2 s before behind h h' =>
      rw [parse_of_unclosed h h']
      exact .unclosed (splitOnce_eq_some_iff.mp h) (splitOnce_eq_none.mp h')
    | case3 s before behind h name rest h' ih =>
      rw [parse_of_ref h h']
      exact .ref (splitOnce_eq_some_iff.mp h) (splitOnce_eq_some_iff.mp h') ih

theorem render_parse_eq_self {f : List α → List α} {s : List α}
    (h : ∀ name ∈ (parse D s).names, f name = written D name) : (parse D s).render f = s := by
  rw [render_congr h, render_written_parse]

end Template

end Foundation
