import Zescrow.Core.Escrow
import Zescrow.Foundation.Template

/-!
# Reading configuration files

`load_escrow_data` expands `${VAR}` references in the text of a file before it parses it, and
refuses a text that refers to an unset variable. `Escrow::from_metadata` reads the conditions file
too, but parses its text as it is. The file system, the environment and the JSON parser are
parameters.
-/

open Foundation

namespace Zescrow

/-- The process a command runs in: where the core crate was built, its file system and its
environment. A variable that is unset or not valid Unicode has no value. -/
structure Process where
  cargoManifestDir : Str
  readToString : Str → Except String Str
  envVar : Str → Option Str

/-- Default path to escrow conditions. -/
def Process.escrowConditionsPath (P : Process) : Str :=
  P.cargoManifestDir ++ "/../deploy/escrow_conditions.json".toList

/-- Errors from loading a file. -/
inductive LoadError where
  | loading (path : Str) (e : String)
  | unsetVariables (names : List Str)
  | parsing (path : Str) (e : String)
  deriving DecidableEq

/-! ## Expansion -/

section

variable {σ : Type}

/-- The loop of `expand_with`. The lookup is a closure with a state of its own. -/
def expandLoop (lookup : Str → σ → Option Str × σ) (result remaining : Str) (st : σ) : Str × σ :=
  match _h : splitOnce ['$', '{'] remaining with
  | none => (result ++ remaining, st)
  | some (before, afterStart) =>
    let result := result ++ before
    match _h' : splitOnce ['}'] afterStart with
    | some (varName, rest) =>
      let (value, st) := lookup varName st
      let result := match value with
        | some value => result ++ value
        | none => result
      expandLoop lookup result rest st
    | none => (result ++ (['$', '{'] ++ afterStart), st)
termination_by remaining.length
decreasing_by
  rw [splitOnce_eq_some _h, splitOnce_eq_some _h']
  simp only [List.length_append, List.length_cons]
  omega

/-- Expands `${VAR}` references in `input`, resolving each name through `lookup`. -/
def expandWith (lookup : Str → σ → Option Str × σ) (input : Str) (st : σ) : Str × σ :=
  if ¬['$', '{'] <:+: input then (input, st) else expandLoop lookup [] input st

end

/-- Expands `${VAR}` references, failing if any referenced variable is unset. The state of the
lookup is the list of the unset names it was asked for. -/
def expandEnvChecked (P : Process) (input : Str) : Except LoadError Str :=
  let (expanded, missing) := expandWith (fun name missing ↦
    match P.envVar name with
    | some value => (some value, missing)
    | none => (none, missing ++ [name])) input []
  if missing = [] then .ok expanded else .error (.unsetVariables missing)

/-! ## Loading -/

/-- Reads a JSON-encoded file, expanding references before parsing. -/
def loadEscrowData {β : Type} (P : Process) (fromStr : Str → Except String β) (path : Str) :
    Except LoadError β := do
  let content ← (P.readToString path).mapError (.loading path)
  let expanded ← expandEnvChecked P content
  (fromStr expanded).mapError (.parsing path)

/-- Constructs an escrow from metadata, reading the conditions file when it has conditions. -/
def Escrow.fromMetadata (P : Process) (fromStr : Str → Except String Condition)
    (metadata : EscrowMetadata) : Except EscrowError Escrow := do
  let condition ← (
    if metadata.params.hasConditions then do
      let content ← (P.readToString P.escrowConditionsPath).mapError .io
      let cond ← (fromStr content).mapError .json
      .ok (some cond)
    else .ok none : Except EscrowError (Option Condition))
  .ok {
    asset := metadata.params.asset
    recipient := metadata.params.recipient
    sender := metadata.params.sender
    condition := condition
    state := metadata.state }

/-! ## What expansion does -/

/-- References are written `${NAME}`. -/
def envDelimiters : Delimiters Char where
  opening := ['$', '{']
  closing := ['}']
  opening_ne_nil := List.cons_ne_nil _ _

/-- The text and its references. -/
def template (s : Str) : Template Char := .parse envDelimiters s

section

variable {σ : Type}

/-- What is put in the place of a reference: the value looked up, or nothing. -/
def resolve (lookup : Str → σ → Option Str × σ) (name : Str) (st : σ) : Str × σ :=
  ((lookup name st).1.getD [], (lookup name st).2)

/-- The loop expands the template of what remains. -/
theorem expandLoop_eq (lookup : Str → σ → Option Str × σ) (result s : Str) (st : σ) :
    expandLoop lookup result s st = (result ++ ((template s).expand (resolve lookup) st).1,
      ((template s).expand (resolve lookup) st).2) := by
  induction s using Template.parse.induct envDelimiters generalizing result st with
  | case1 s h =>
    rw [template, Template.parse_of_no_opening h, expandLoop]
    split
    · rfl
    · next hsome => exact absurd (hsome.symm.trans h) (Option.some_ne_none _)
  | case2 s before behind h h' =>
    rw [template, Template.parse_of_unclosed h h', expandLoop]
    split
    · next hnone => exact absurd (h.symm.trans hnone) (Option.some_ne_none _)
    · next hsome =>
      obtain ⟨rfl, rfl⟩ := Prod.mk.inj (Option.some.inj (h.symm.trans hsome))
      split
      · next hclosed => exact absurd (hclosed.symm.trans h') (Option.some_ne_none _)
      · -- The loop copies the rest of the text, opening delimiter included.
        have hs : s = before ++ (['$', '{'] ++ behind) := splitOnce_eq_some h
        rw [Template.expand, hs]
        exact congrArg (fun r ↦ (r, st)) (List.append_assoc _ _ _)
  | case3 s before behind h name rest h' ih =>
    rw [template, Template.parse_of_ref h h', expandLoop]
    split
    · next hnone => exact absurd (h.symm.trans hnone) (Option.some_ne_none _)
    · next hsome =>
      obtain ⟨rfl, rfl⟩ := Prod.mk.inj (Option.some.inj (h.symm.trans hsome))
      split
      · next hclosed =>
        obtain ⟨rfl, rfl⟩ := Prod.mk.inj (Option.some.inj (h'.symm.trans hclosed))
        simp only [ih, Template.expand, resolve, template]
        cases (lookup name st).1 with
        | none => simp only [Option.getD_none, List.append_nil, List.append_assoc]
        | some v => simp only [Option.getD_some, List.append_assoc]
      · next hunclosed => exact absurd (h'.symm.trans hunclosed) (Option.some_ne_none _)

theorem expandWith_eq_expand (lookup : Str → σ → Option Str × σ) (s : Str) (st : σ) :
    expandWith lookup s st = (template s).expand (resolve lookup) st := by
  rw [expandWith]
  split
  · next hno =>
    rw [template, Template.parse_of_no_opening (splitOnce_eq_none.mpr hno)]
    rfl
  · rw [expandLoop_eq, List.nil_append]

/-- A lookup whose value does not depend on its state is one rendering of the template, and is asked
for the names in order. -/
theorem expandWith_eq {lookup : Str → σ → Option Str × σ} {value : Str → Option Str}
    {note : σ → Str → σ} (hlookup : ∀ name st, lookup name st = (value name, note st name))
    (s : Str) (st : σ) :
    expandWith lookup s st
      = ((template s).render fun name ↦ (value name).getD [],
        (template s).names.foldl note st) := by
  have hresolve : resolve lookup = fun name st ↦ ((value name).getD [], note st name) := by
    funext name st
    rw [resolve, hlookup]
  rw [expandWith_eq_expand, hresolve, Template.expand_eq]

end

/-- The names noted as unset after one more was asked for. -/
def noteUnset (value : Str → Option Str) (missing : List Str) (name : Str) : List Str :=
  if value name = none then missing ++ [name] else missing

theorem foldl_noteUnset (value : Str → Option Str) (names missing : List Str) :
    names.foldl (noteUnset value) missing = missing ++ names.filter (value · = none) := by
  induction names generalizing missing with
  | nil => rw [List.foldl_nil, List.filter_nil, List.append_nil]
  | cons name names ih =>
    rw [List.foldl_cons, ih, noteUnset]
    by_cases h : value name = none
    · rw [if_pos h, List.filter_cons_of_pos (by simpa using h), List.append_assoc,
        List.singleton_append]
    · rw [if_neg h, List.filter_cons_of_neg (by simpa using h)]

/-- Expansion renders the template with the values of the variables, and fails with the names of
those that are unset. -/
theorem expandEnvChecked_eq (P : Process) (s : Str) :
    expandEnvChecked P s =
      if (template s).names.filter (P.envVar · = none) = [] then
        .ok ((template s).render fun name ↦ (P.envVar name).getD [])
      else .error (.unsetVariables ((template s).names.filter (P.envVar · = none))) := by
  have hlookup (name : Str) (missing : List Str) : (match P.envVar name with
      | some value => (some value, missing)
      | none => (none, missing ++ [name])) = (P.envVar name, noteUnset P.envVar missing name) := by
    rw [noteUnset]
    split
    · next value h => rw [h, if_neg (Option.some_ne_none value)]
    · next h => rw [h, if_pos rfl]
  rw [expandEnvChecked, expandWith_eq hlookup, foldl_noteUnset, List.nil_append]

theorem expandEnvChecked_eq_ok {P : Process} {s expanded : Str} :
    expandEnvChecked P s = .ok expanded ↔ (∀ name ∈ (template s).names, P.envVar name ≠ none) ∧
      expanded = (template s).render fun name ↦ (P.envVar name).getD [] := by
  rw [expandEnvChecked_eq]
  by_cases h : (template s).names.filter (P.envVar · = none) = []
  · have hset : ∀ name ∈ (template s).names, P.envVar name ≠ none := by
      intro name hname
      simpa using List.filter_eq_nil_iff.mp h name hname
    rw [if_pos h, Except.ok.injEq, and_iff_right hset, eq_comm]
  · rw [if_neg h]
    refine ⟨fun hok ↦ absurd hok error_ne_ok, fun hset ↦ absurd ?_ h⟩
    exact List.filter_eq_nil_iff.mpr fun name hname ↦ by simpa using hset.1 name hname

theorem expandEnvChecked_eq_self {P : Process} {s : Str}
    (h : ∀ name ∈ (template s).names, P.envVar name = some (Template.written envDelimiters name)) :
    expandEnvChecked P s = .ok s := by
  refine expandEnvChecked_eq_ok.mpr ⟨fun name hname ↦ ?_, ?_⟩
  · rw [h name hname]
    exact Option.some_ne_none _
  · refine (Template.render_parse_eq_self fun name hname ↦ ?_).symm
    rw [h name hname, Option.getD_some]

theorem expandEnvChecked_eq_error {P : Process} {s : Str} {e : LoadError} :
    expandEnvChecked P s = .error e ↔ (∃ name ∈ (template s).names, P.envVar name = none) ∧
      e = .unsetVariables ((template s).names.filter (P.envVar · = none)) := by
  have hnil : (template s).names.filter (P.envVar · = none) = [] ↔
      ¬∃ name ∈ (template s).names, P.envVar name = none := by
    rw [List.filter_eq_nil_iff]
    simp only [decide_eq_true_eq, not_exists, not_and]
  rw [expandEnvChecked_eq]
  by_cases h : (template s).names.filter (P.envVar · = none) = []
  · rw [if_pos h]
    exact iff_of_false ok_ne_error fun h' ↦ hnil.mp h h'.1
  · rw [if_neg h, Except.error.injEq, and_iff_right (not_not.mp (mt hnil.mpr h)), eq_comm]

/-- A lookup that also keeps a record of the names it was asked for. -/
def logged {σ : Type} (lookup : Str → σ → Option Str × σ) (name : Str) (st : σ × List Str) :
    Option Str × σ × List Str :=
  ((lookup name st.1).1, (lookup name st.1).2, st.2 ++ [name])

theorem expand_logged {σ : Type} (lookup : Str → σ → Option Str × σ) (t : Template Char)
    (st : σ) (names : List Str) :
    (t.expand (resolve (logged lookup)) (st, names)).2.2 = names ++ t.names := by
  induction t generalizing st names with
  | text s => exact (List.append_nil names).symm
  | ref before name rest ih =>
    rw [Template.expand, Template.names]
    exact (ih _ _).trans (List.append_assoc names [name] rest.names)

/-- **Expansion is one pass from left to right.** There is one way to cut a text into references and
what stands between them. Expansion puts what the lookup returns in the place of each reference,
asking once for each in order, and keeps the rest. The checked expansion succeeds exactly if all
the names are set, and otherwise its error lists those that are not, in order. -/
theorem expansion_single_pass {σ : Type} (lookup : Str → σ → Option Str × σ) (s : Str) (st : σ)
    (P : Process) :
    ∃ t, (∀ t', Template.Splits envDelimiters s t' ↔ t' = t) ∧
      expandWith lookup s st = t.expand (resolve lookup) st ∧
      (expandWith (logged lookup) s (st, [])).2.2 = t.names ∧
      (∀ expanded, expandEnvChecked P s = .ok expanded ↔
        (∀ name ∈ t.names, P.envVar name ≠ none) ∧
          expanded = t.render fun name ↦ (P.envVar name).getD []) ∧
      ∀ e, expandEnvChecked P s = .error e ↔ (∃ name ∈ t.names, P.envVar name = none) ∧
        e = .unsetVariables (t.names.filter (P.envVar · = none)) := by
  refine ⟨template s, fun t' ↦ Template.splits_iff, expandWith_eq_expand lookup s st, ?_,
    fun expanded ↦ expandEnvChecked_eq_ok, fun e ↦ expandEnvChecked_eq_error⟩
  rw [expandWith_eq_expand, expand_logged, List.nil_append]

/-! ## What loading does -/

theorem loadEscrowData_eq_ok {β : Type} {P : Process} {fromStr : Str → Except String β} {path : Str}
    {b : β} : loadEscrowData P fromStr path = .ok b ↔ ∃ content expanded,
      P.readToString path = .ok content ∧ expandEnvChecked P content = .ok expanded ∧
      fromStr expanded = .ok b := by
  rw [loadEscrowData, bind_eq_ok]
  simp only [bind_eq_ok, mapError_eq_ok]
  constructor
  · rintro ⟨content, hread, expanded, hexpand, hparse⟩
    exact ⟨content, expanded, hread, hexpand, hparse⟩
  · rintro ⟨content, expanded, hread, hexpand, hparse⟩
    exact ⟨content, hread, expanded, hexpand, hparse⟩

theorem Escrow.fromMetadata_eq_ok {P : Process} {fromStr : Str → Except String Condition}
    {metadata : EscrowMetadata} (hcond : metadata.params.hasConditions = true) {escrow : Escrow} :
    fromMetadata P fromStr metadata = .ok escrow ↔ ∃ content c,
      P.readToString P.escrowConditionsPath = .ok content ∧ fromStr content = .ok c ∧
      escrow = ⟨metadata.params.asset, metadata.params.recipient, metadata.params.sender, some c,
        metadata.state⟩ := by
  rw [fromMetadata, if_pos hcond]
  simp only [bind_eq_ok, mapError_eq_ok, Except.ok.injEq]
  constructor
  · rintro ⟨_, ⟨content, hread, c, hparse, rfl⟩, rfl⟩
    exact ⟨content, c, hread, hparse, rfl⟩
  · rintro ⟨content, c, hread, hparse, rfl⟩
    exact ⟨some c, ⟨content, hread, c, hparse, rfl⟩, rfl⟩

end Zescrow
