import Mathlib.Data.List.Basic
import RingScan.Memory.Store
import RingScan.Proofs.Ring.Order
import RingScan.Query.Statement

/-!
# What a statement selects

The rows that a statement selects are told by the text of its condition and the values bound to the
marks in it.  Here the text is read as a server reads it: a conjunction of comparisons, each of the
token of some columns with the value of the next mark.  What is read off the statement for a split
is then compared with membership in the split.

The two agree on a split that does not wrap around the ring.  On one that does, and on the whole
ring, the condition asks for a token after the later bound and up to the earlier one, and no token
is there, although the split has tokens.

## Main definitions

* `Query.Condition`: a comparison of the token of some columns with a bound value.
* `Query.readWhere`: the comparisons that the text of a condition consists of.
* `Query.selects`: a token meets a condition.

## Main statements

* `Template.selects_bounds`: the tokens that the statement for a split selects.
* `Template.selects_iff_contains`: the statement selects its split if and only if the split does not
  wrap.
-/

namespace RingScan

/-- A comparison holds between two tokens. -/
def Comparison.holds : Comparison → Token → Token → Bool
  | equal, a, b => decide (a = b)
  | greater, a, b => decide (b < a)
  | greaterOrEqual, a, b => decide (b ≤ a)
  | less, a, b => decide (a < b)
  | lessOrEqual, a, b => decide (a ≤ b)

/-- The comparison that a sign stands for. -/
def Comparison.ofSign? (sign : List Char) : Option Comparison :=
  [equal, greater, greaterOrEqual, less, lessOrEqual].find? (·.sign.toList = sign)

namespace Query

/-! ### Reading a condition -/

/-- The text before the first closing bracket that does not stand between quotes, and the text after
it. -/
def argument : Bool → List Char → Option (List Char × List Char)
  | _, [] => none
  | inside, c :: cs =>
    if c = ')' ∧ inside = false then some ([], cs)
    else
      (argument (if c = '"' then !inside else inside) cs).map fun texts =>
        (c :: texts.1, texts.2)

/-- A comparison of the token of some columns with a bound value. -/
structure Condition where
  /-- The names of the columns, as they are written. -/
  columns : List Char
  /-- How the token is compared. -/
  comparison : Comparison
  deriving DecidableEq, Repr

/-- Reads one comparison, and tells what follows it. -/
def readCondition (cs : List Char) : Option (Condition × List Char) := do
  let cs ← cs.dropPrefix? "token(".toList
  let (columns, cs) ← argument false cs
  let cs ← cs.dropPrefix? [' ']
  let comparison ← Comparison.ofSign? (cs.takeWhile (· != ' '))
  let cs ← (cs.dropWhile (· != ' ')).dropPrefix? " ?".toList
  some (⟨columns, comparison⟩, cs)

/-- Reads comparisons up to the end of a text, at most `limit` of them. -/
def readConditions : ℕ → List Char → Option (List Condition)
  | 0, _ => none
  | limit + 1, cs => do
    let (first, cs) ← readCondition cs
    if cs.isEmpty then some [first]
    else
      let rest ← readConditions limit (← cs.dropPrefix? " AND ".toList)
      some (first :: rest)

/-- The comparisons that the text of a condition consists of. -/
def readWhere (cs : List Char) : Option (List Condition) := do
  readConditions cs.length (← cs.dropPrefix? " WHERE ".toList)

/-! ### Meeting a condition -/

/-- A token of the given columns meets a comparison with a bound value. -/
def Condition.holds (columns : List Char) (token : Token) (condition : Condition) (value : Value) :
    Bool :=
  match Token.ofBound? value with
  | some bound => decide (condition.columns = columns) && condition.comparison.holds token bound
  | none => false

/-- A token of the given columns meets a condition, whose marks are bound to the given values in
order. -/
def selects (text columns : List Char) (values : List Value) (token : Token) : Bool :=
  match readWhere text with
  | some conditions =>
    conditions.length == values.length &&
      (conditions.zip values).all fun (condition, value) => condition.holds columns token value
  | none => false

/-! ### Brackets and quotes -/

/-- Looking for a closing bracket passes over a text, and then is between quotes or not. -/
private def Passes (before after : Bool) (cs : List Char) : Prop :=
  ∀ rest, argument before (cs ++ rest) =
    (argument after rest).map fun texts => (cs ++ texts.1, texts.2)

private theorem Passes.append {a b c : Bool} {cs ds : List Char} (hc : Passes a b cs)
    (hd : Passes b c ds) : Passes a c (cs ++ ds) := by
  intro rest
  rw [List.append_assoc, hc, hd, Option.map_map]
  refine congrArg (Option.map · _) (funext fun texts => ?_)
  rw [Function.comp_apply, List.append_assoc]

private theorem Passes.nil (a : Bool) : Passes a a [] := by
  intro rest
  exact Option.map_id'.symm

private theorem Passes.char {c : Char} {inside : Bool} (h : ¬ (c = ')' ∧ inside = false)) :
    Passes inside (if c = '"' then !inside else inside) [c] := by
  intro rest
  rw [List.singleton_append, argument, if_neg h]
  rfl

private theorem Passes.doubled (cs : List Char) : Passes true true (Text.doubled '"' cs) := by
  induction cs with
  | nil => exact Passes.nil true
  | cons c cs ih =>
    by_cases h : c = '"'
    · subst h
      have hopen : Passes true false ['"'] := Passes.char (by decide)
      have hclose : Passes false true ['"'] := Passes.char (by decide)
      exact hopen.append (hclose.append ih)
    · have hquoted : ¬ (c = ')' ∧ true = false) := fun hand => absurd hand.2 nofun
      have hchar := Passes.char hquoted
      rw [if_neg h] at hchar
      rw [Text.doubled, if_neg h]
      exact hchar.append ih

private theorem Passes.name (s : String) : Passes false false (name s) := by
  have hopen : Passes false true ['"'] := Passes.char (by decide)
  have hclose : Passes true false ['"'] := Passes.char (by decide)
  exact hopen.append ((Passes.doubled s.toList).append hclose)

private theorem Passes.names (names : List String) : Passes false false (Template.names names) := by
  induction names with
  | nil => exact Passes.nil false
  | cons first names ih =>
    cases names with
    | nil =>
      rw [Template.names_singleton]
      exact Passes.name first
    | cons second names =>
      have hcomma : Passes false false [','] := Passes.char (by decide)
      rw [Template.names_cons_cons]
      exact (Passes.name first).append (hcomma.append ih)

theorem argument_names (names : List String) (rest : List Char) :
    argument false (Template.names names ++ ')' :: rest) = some (Template.names names, rest) := by
  rw [Passes.names, argument, if_pos ⟨rfl, rfl⟩, Option.map_some, List.append_nil]

private theorem dropPrefix?_append (text rest : List Char) :
    (text ++ rest).dropPrefix? text = some rest :=
  List.dropPrefix?_append_of_beq rest (beq_self_eq_true text)

/-! ### Comparisons -/

theorem ofSign?_sign (comparison : Comparison) :
    Comparison.ofSign? comparison.sign.toList = some comparison := by
  cases comparison <;> rfl

private theorem takeWhile_sign (comparison : Comparison) (rest : List Char) :
    (comparison.sign.toList ++ (' ' :: rest)).takeWhile (· != ' ') = comparison.sign.toList := by
  cases comparison <;> rfl

private theorem dropWhile_sign (comparison : Comparison) (rest : List Char) :
    (comparison.sign.toList ++ (' ' :: rest)).dropWhile (· != ' ') = ' ' :: rest := by
  cases comparison <;> rfl

/-- The text of a comparison of the token of some columns with a bound value. -/
def conditionText (columns : List Char) (comparison : Comparison) : List Char :=
  "token(".toList ++ (columns ++ (") ".toList ++ (comparison.sign.toList ++ " ?".toList)))

/-- A comparison of the token of named columns is read back. -/
theorem readCondition_text (names : List String) (comparison : Comparison) (rest : List Char) :
    readCondition (conditionText (Template.names names) comparison ++ rest) =
      some (⟨Template.names names, comparison⟩, rest) := by
  let mark := comparison.sign.toList ++ (" ?".toList ++ rest)
  have hbracket : ") ".toList = ")".toList ++ " ".toList := by decide
  have hargument : argument false (Template.names names ++ (")".toList ++ (" ".toList ++ mark))) =
      some (Template.names names, " ".toList ++ mark) := argument_names names _
  have htext : conditionText (Template.names names) comparison ++ rest =
      "token(".toList ++ (Template.names names ++ (")".toList ++ (" ".toList ++ mark))) := by
    unfold conditionText
    rw [hbracket]
    simp only [mark, List.append_assoc]
  have hsign : mark.takeWhile (· != ' ') = comparison.sign.toList :=
    takeWhile_sign comparison ('?' :: rest)
  have hrest : mark.dropWhile (· != ' ') = " ?".toList ++ rest :=
    dropWhile_sign comparison ('?' :: rest)
  have hspace : (" ".toList ++ mark).dropPrefix? [' '] = some mark := dropPrefix?_append [' '] mark
  simp only [readCondition, htext, dropPrefix?_append, hargument, hspace, hsign, ofSign?_sign,
    hrest, Option.bind_eq_bind, Option.bind_some]

private theorem readConditions_text (limit : ℕ) (names : List String)
    (first second : Comparison) :
    readConditions (limit + 2) (conditionText (Template.names names) first ++
        (" AND ".toList ++ conditionText (Template.names names) second)) =
      some [⟨Template.names names, first⟩, ⟨Template.names names, second⟩] := by
  have hlast : readCondition (conditionText (Template.names names) second) =
      some (⟨Template.names names, second⟩, []) := by
    have hread := readCondition_text names second []
    rwa [List.append_nil] at hread
  have hmore : (" AND ".toList ++ conditionText (Template.names names) second).isEmpty = false :=
    rfl
  simp only [readConditions, readCondition_text, hlast, hmore, dropPrefix?_append,
    List.isEmpty_nil, Option.bind_eq_bind, Option.bind_some, if_true, Bool.false_eq_true, if_false]

/-- A conjunction of two comparisons is read back. -/
theorem readWhere_text (names : List String) (first second : Comparison) :
    readWhere (" WHERE ".toList ++ (conditionText (Template.names names) first ++
        (" AND ".toList ++ conditionText (Template.names names) second))) =
      some [⟨Template.names names, first⟩, ⟨Template.names names, second⟩] := by
  generalize htext : conditionText (Template.names names) first ++
    (" AND ".toList ++ conditionText (Template.names names) second) = text
  have hlength : (" WHERE ".toList ++ text).length = text.length + 5 + 2 := by
    rw [List.length_append]
    show 7 + text.length = text.length + 5 + 2
    omega
  have hread := readConditions_text (text.length + 5) names first second
  rw [htext] at hread
  rw [readWhere, dropPrefix?_append, hlength]
  exact hread

end Query

/-- The value that is bound for a token stands for it. -/
theorem Token.ofBound?_bound (token : Token) : Token.ofBound? token.bound = some token := by
  cases token <;> rfl

/-! ### The statement for a split -/

namespace Template

private theorem bounds_start : " WHERE token(".toList = " WHERE ".toList ++ "token(".toList := by
  decide

private theorem bounds_between : ") > ? AND token(".toList = ") ".toList ++ (">".toList ++
    (" ?".toList ++ (" AND ".toList ++ "token(".toList))) := by
  decide

private theorem bounds_stop : ") <= ?".toList = ") ".toList ++ ("<=".toList ++ " ?".toList) := by
  decide

/-- The condition of a statement that scans a split is that the token comes after one value and not
after another. -/
theorem bounds_eq (template : Template) :
    template.bounds = " WHERE ".toList ++ (Query.conditionText template.keyNames .greater ++
      (" AND ".toList ++ Query.conditionText template.keyNames .lessOrEqual)) := by
  unfold bounds Query.conditionText
  simp only [bounds_start, bounds_between, bounds_stop, Comparison.sign, List.append_assoc]

/-- The statement for a split selects the tokens after its start and up to its end. -/
theorem selects_bounds (template : Template) {columns : List String}
    (hnames : template.keyNames = names columns) (split : Split) (token : Token) :
    Query.selects template.bounds template.keyNames split.bounds token = true ↔
      split.start < token ∧ token ≤ split.stop := by
  have hread : Query.readWhere template.bounds =
      some [⟨template.keyNames, .greater⟩, ⟨template.keyNames, .lessOrEqual⟩] := by
    rw [bounds_eq, hnames]
    exact Query.readWhere_text columns .greater .lessOrEqual
  have hstart : Token.ofBound? split.start.bound = some split.start := Token.ofBound?_bound _
  have hstop : Token.ofBound? split.stop.bound = some split.stop := Token.ofBound?_bound _
  simp only [Query.selects, hread, Split.bounds, List.zip_cons_cons, List.zip_nil_left,
    List.all_cons, List.all_nil, Query.Condition.holds, hstart, hstop, Comparison.holds,
    List.length_cons, List.length_nil, beq_self_eq_true, decide_true, Bool.true_and, Bool.and_true,
    Bool.and_eq_true, decide_eq_true_eq]

/-- **The statement for a split selects its split if and only if the split does not wrap.** The
statement of a scan contains its condition, and the values bound to its marks are the bounds of the
split.  Read together they select the tokens of the split when it does not wrap, and no token at all
when it wraps or is the whole ring, although such a split holds its end. -/
theorem selects_iff_contains (filters : Query.Filters) (job : Job) (keys : KeyLayout)
    (table : Table) (partitioner : Partitioner) (split : Split) :
    let template := ofJob filters job keys table
    ∃ statement, template.statement? none keys.shape partitioner split = .ok (some statement) ∧
      template.bounds <:+: statement.query.toList ∧
      (∀ token, Query.selects template.bounds template.keyNames statement.values token = true ↔
        split.isWrapping = false ∧ split.contains token = true) ∧
      ((∀ token, Query.selects template.bounds template.keyNames statement.values token = true ↔
        split.contains token = true) ↔ split.isWrapping = false) := by
  intro template
  have hselects (token : Token) :
      Query.selects template.bounds template.keyNames split.bounds token = true ↔
        split.isWrapping = false ∧ split.contains token = true :=
    (template.selects_bounds rfl split token).trans (split.between_iff token)
  refine ⟨_, rfl, ?_, hselects, ?_⟩
  · rw [String.toList_ofList]
    exact ⟨"SELECT ".toList ++ (template.selection ++ (" FROM ".toList ++ template.table)),
      template.filters ++ " ALLOW FILTERING".toList, by
        unfold rangeText
        simp only [List.append_assoc]⟩
  · constructor
    · intro hall
      by_contra hwrap
      rw [Bool.not_eq_false] at hwrap
      have hstop := (hall split.stop).2 (Split.contains_stop_of_isWrapping hwrap)
      rw [hselects, hwrap] at hstop
      exact absurd hstop.1 nofun
    · intro hwrap token
      rw [hselects]
      exact and_iff_right hwrap

/-- The end of a split that wraps, and any token of the whole ring, is left out. -/
theorem selects_wrapping_false :
    let template := ofJob Query.standardFilters { keyspace := "", table := "t" }
      ⟨⟨"id", .bigInt, false⟩, [], []⟩ ⟨[⟨"id", .bigInt, false⟩], [], []⟩
    let wrapping : Split := ⟨.long 100, .long (-100), []⟩
    let ring : Split := ⟨.long 7, .long 7, []⟩
    (wrapping.contains (.long (-100)) = true ∧
      Query.selects template.bounds template.keyNames wrapping.bounds (.long (-100)) = false) ∧
    (ring.contains (.long 7) = true ∧
      Query.selects template.bounds template.keyNames ring.bounds (.long 7) = false) := by
  decide

end Template

end RingScan
