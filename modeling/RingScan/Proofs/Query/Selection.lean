import Mathlib.Data.List.Basic
import RingScan.Query.Statement

/-!
# Selected columns

What a statement selects is read from its text: a star, or names between double quotes with commas
between them.  A name goes up to a quote character that is not doubled, so it may hold commas,
blanks and the word that follows the selection.

## Main definitions

* `Query.Selection`: all columns, or the named ones.
* `Query.readSelection`: what the text of a statement selects.

## Main statements

* `Template.readSelection_statement?`: a statement selects the columns that it was made for.
-/

namespace RingScan

namespace Query

/-! ### Reading a selection -/

/-- What a statement selects. -/
inductive Selection where
  /-- All columns of the table. -/
  | all
  /-- The columns of the given names. -/
  | columns (names : List String)
  deriving DecidableEq, Repr

/-- The name behind an opening quote, and what follows its closing quote. -/
def nameFrom : List Char → Option (List Char × List Char)
  | [] => none
  | [c] => if c = '"' then some ([], []) else none
  | c :: d :: cs =>
    if c = '"' then
      if d = '"' then (nameFrom cs).map fun p => (c :: p.1, p.2) else some ([], d :: cs)
    else (nameFrom (d :: cs)).map fun p => (c :: p.1, p.2)

/-- Names between quotes with commas between them, at most `limit` of them, and what follows. -/
def readNames : ℕ → List Char → Option (List String × List Char)
  | 0, _ => none
  | limit + 1, cs => do
    let (name, cs) ← nameFrom (← cs.dropPrefix? ['"'])
    match cs.dropPrefix? [','] with
    | none => some ([String.ofList name], cs)
    | some cs =>
      let (names, cs) ← readNames limit cs
      some (String.ofList name :: names, cs)

/-- What the text of a statement selects. -/
def readSelection (text : List Char) : Option Selection := do
  let cs ← text.dropPrefix? "SELECT ".toList
  match cs.dropPrefix? ['*'] with
  | some cs =>
    let _ ← cs.dropPrefix? " FROM ".toList
    some .all
  | none =>
    let (names, cs) ← readNames cs.length cs
    let _ ← cs.dropPrefix? " FROM ".toList
    some (.columns names)

/-! ### Names -/

private theorem dropPrefix?_of_append (text rest : List Char) :
    (text ++ rest).dropPrefix? text = some rest :=
  List.dropPrefix?_append_of_beq rest (beq_self_eq_true text)

/-- A name is read up to its closing quote if no quote follows. -/
theorem nameFrom_doubled (cs : List Char) {rest : List Char} (h : rest.head? ≠ some '"') :
    nameFrom (Text.doubled '"' cs ++ '"' :: rest) = some (cs, rest) := by
  induction cs with
  | nil =>
    cases rest with
    | nil => rfl
    | cons d rest =>
      have hd : d ≠ '"' := fun heq => h (congrArg some heq)
      rw [Text.doubled, List.nil_append, nameFrom, if_pos rfl, if_neg hd]
  | cons c cs ih =>
    by_cases hc : c = '"'
    · subst hc
      rw [Text.doubled, if_pos rfl, List.cons_append, List.cons_append, nameFrom, if_pos rfl,
        if_pos rfl, ih, Option.map_some]
    · obtain ⟨d, ds, hrest⟩ : ∃ d ds, Text.doubled '"' cs ++ '"' :: rest = d :: ds :=
        List.exists_cons_of_ne_nil (by simp)
      rw [Text.doubled, if_neg hc, List.cons_append, hrest, nameFrom, if_neg hc, ← hrest, ih,
        Option.map_some]

theorem length_le_length_names (names : List String) :
    names.length ≤ (Template.names names).length := by
  induction names with
  | nil => exact Nat.zero_le _
  | cons name names ih =>
    have hname : 0 < (Query.name name).length := Nat.succ_pos _
    cases names with
    | nil =>
      rw [Template.names_singleton]
      exact hname
    | cons other names =>
      rw [Template.names_cons_cons]
      simp only [List.length_append, List.length_cons] at ih ⊢
      omega

/-- Names with commas between them are read back if neither a quote nor a comma follows. -/
theorem readNames_names {names : List String} (hne : names ≠ []) {rest : List Char}
    (hquote : rest.head? ≠ some '"') (hcomma : rest.dropPrefix? [','] = none) {limit : ℕ}
    (hlimit : names.length ≤ limit) :
    readNames limit (Template.names names ++ rest) = some (names, rest) := by
  induction names generalizing limit with
  | nil => exact absurd rfl hne
  | cons name names ih =>
    obtain ⟨limit, rfl⟩ : ∃ n, limit = n + 1 :=
      ⟨limit - 1, by rw [List.length_cons] at hlimit; omega⟩
    have hopen (ds : List Char) : (Query.name name ++ ds).dropPrefix? ['"'] =
        some (Text.doubled '"' name.toList ++ '"' :: ds) := by
      have htext : Query.name name ++ ds =
          ['"'] ++ (Text.doubled '"' name.toList ++ '"' :: ds) := by
        simp [Query.name, Text.quoted]
      rw [htext, dropPrefix?_of_append]
    cases names with
    | nil =>
      simp only [readNames, Template.names_singleton, hopen, nameFrom_doubled _ hquote, hcomma,
        Option.bind_eq_bind, Option.bind_some, String.ofList_toList]
    | cons other names =>
      have hmore : (',' :: (Template.names (other :: names) ++ rest)).dropPrefix? [','] =
          some (Template.names (other :: names) ++ rest) := dropPrefix?_of_append [','] _
      have htext : Template.names (name :: other :: names) ++ rest =
          Query.name name ++ ',' :: (Template.names (other :: names) ++ rest) := by
        rw [Template.names_cons_cons, List.append_assoc, List.cons_append]
      have hrest := ih (List.cons_ne_nil _ _) (Nat.le_of_succ_le_succ hlimit)
      have hnot : (',' :: (Template.names (other :: names) ++ rest)).head? ≠ some '"' := by
        rw [List.head?_cons]
        decide
      simp only [readNames, htext, hopen, nameFrom_doubled _ hnot, hmore, hrest,
        Option.bind_eq_bind, Option.bind_some, String.ofList_toList]

/-! ### Selections -/

/-- The selection of a statement is read from its text, whatever follows. -/
theorem readSelection_selectionOf (keys : KeyLayout) (columns : List String) (rest : List Char) :
    readSelection ("SELECT ".toList ++ (Template.selectionOf keys columns ++
        (" FROM ".toList ++ rest))) =
      some (if columns = [] then .all else .columns (Template.selected keys columns)) := by
  by_cases hcolumns : columns = []
  · subst hcolumns
    rw [readSelection, dropPrefix?_of_append, if_pos rfl]
    exact congrArg (Option.bind · fun _ => some Selection.all)
      (dropPrefix?_of_append " FROM ".toList rest)
  · have hselection : Template.selectionOf keys columns =
        Template.names (Template.selected keys columns) := by
      rw [Template.selectionOf, List.isEmpty_eq_false_iff.2 hcolumns, if_neg Bool.false_ne_true]
    have hne : Template.selected keys columns ≠ [] := List.cons_ne_nil _ _
    have hstar : (Template.names (Template.selected keys columns) ++
        (" FROM ".toList ++ rest)).dropPrefix? ['*'] = none := by
      obtain ⟨name, names, hnames⟩ := List.exists_cons_of_ne_nil hne
      rw [hnames]
      cases names <;> rfl
    have hquote : (" FROM ".toList ++ rest).head? ≠ some '"' :=
      show some ' ' ≠ some '"' by decide
    have hlimit : (Template.selected keys columns).length ≤
        (Template.names (Template.selected keys columns) ++ (" FROM ".toList ++ rest)).length :=
      Nat.le_trans (length_le_length_names _) (by rw [List.length_append]; omega)
    have hnames := readNames_names hne hquote rfl hlimit
    rw [readSelection, dropPrefix?_of_append, hselection, if_neg hcolumns]
    simp only [Option.bind_eq_bind, Option.bind_some, hstar, hnames, dropPrefix?_of_append]

end Query

namespace Template

/-- Both kinds of statements select the columns of their template. -/
theorem query_of_statement? {template : Template} {lookup : Option Lookup} {shape : KeyShape}
    {partitioner : Partitioner} {split : Split} {statement : Statement}
    (h : template.statement? lookup shape partitioner split = .ok (some statement)) :
    ∃ rest, statement.query.toList =
      "SELECT ".toList ++ (template.selection ++ (" FROM ".toList ++ rest)) := by
  cases lookup with
  | none =>
    cases h
    exact ⟨_, String.toList_ofList⟩
  | some lookup =>
    simp only [statement?] at h
    rcases hretained : lookup.retained shape partitioner split with failure | _ | ⟨_, _⟩ <;>
      rw [hretained] at h <;> cases h
    exact ⟨_, String.toList_ofList⟩

/-- **A statement selects the columns that it was made for**: all of them, or those of the key and
the wanted ones. -/
theorem readSelection_statement? {filters : Query.Filters} {job : Job} {keys : KeyLayout}
    {table : Table} {lookup : Option Lookup} {shape : KeyShape} {partitioner : Partitioner}
    {split : Split} {statement : Statement}
    (h : (ofJob filters job keys table).statement? lookup shape partitioner split =
      .ok (some statement)) :
    Query.readSelection statement.query.toList =
      some (if job.columns = [] then .all else .columns (selected keys job.columns)) := by
  obtain ⟨rest, hquery⟩ := query_of_statement? h
  rw [hquery]
  exact Query.readSelection_selectionOf keys job.columns rest

end Template

end RingScan
