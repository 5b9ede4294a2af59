import RingScan.Proofs.Value.Quiet
import RingScan.Query.Statement

/-!
# Quotes in a statement

The statement that scans a split is put together from the names and values of a job, whatever they
contain.  Here it is read as a server reads it, one character after the other: a double quote opens
a name and a single quote opens a literal, a quote character that follows another one inside its own
kind of quote stands for itself, and one that does not closes the quote.  Nothing of the job escapes
its quotes: the pieces between quotes are the names and texts of the job, unchanged and in their
order, and outside of all quotes there are as many marks as values are bound.

What has been read so far is not known to end before the next character, which may double the last
quote.  Texts are therefore put together in two ways: behind one that stays outside of quotes
anything may follow, and behind one that may end in a quote only what does not start with one.

## Main definitions

* `Query.read`: the quoted pieces of a text and the number of marks outside of them.
* `Value.pieces`: the quoted texts inside the literal of a value.
* `Job.pieces`: the names and texts of a job that stand between quotes in its statement.

## Main statements

* `Query.reads_literal`: the quoted texts of a literal are read back.
* `Template.read_rangeText`: the names and texts of a job are read back from its statement.
-/

namespace RingScan

namespace Query

/-! ### Reading a text -/

/-- The kinds of quotes. -/
inductive Quote where
  /-- Around a name. -/
  | double
  /-- Around a literal. -/
  | single
  deriving DecidableEq, Repr

namespace Quote

/-- The character that opens and closes a quote. -/
def char : Quote → Char
  | double => '"'
  | single => '\''

/-- The quote that a character opens. -/
def ofChar? (c : Char) : Option Quote :=
  if c = '"' then some double else if c = '\'' then some single else none

theorem ofChar?_char (quote : Quote) : ofChar? quote.char = some quote := by
  cases quote <;> rfl

theorem ofChar?_eq_none_iff {c : Char} : ofChar? c = none ↔ c ≠ '"' ∧ c ≠ '\'' := by
  unfold ofChar?
  split_ifs with hdouble hsingle
  · exact iff_of_false nofun fun h => h.1 hdouble
  · exact iff_of_false nofun fun h => h.2 hsingle
  · exact iff_of_true rfl ⟨hdouble, hsingle⟩

end Quote

/-- What stands between two quotes. -/
structure Piece where
  /-- The kind of the quotes. -/
  quote : Quote
  /-- The text between them, in which a doubled quote counts once. -/
  text : String
  deriving DecidableEq, Repr

/-- A name between its quotes. -/
def Piece.name (s : String) : Piece :=
  ⟨.double, s⟩

/-- A literal between its quotes. -/
def Piece.literal (s : String) : Piece :=
  ⟨.single, s⟩

/-- What is met in a text. -/
structure Reading where
  /-- The quoted pieces, in order. -/
  pieces : List Piece := []
  /-- The number of marks outside of quotes. -/
  marks : ℕ := 0
  deriving DecidableEq, Repr

/-- What is met in one text and then in another. -/
instance : Append Reading where
  append a b := ⟨a.pieces ++ b.pieces, a.marks + b.marks⟩

theorem Reading.append_def (a b : Reading) : a ++ b = ⟨a.pieces ++ b.pieces, a.marks + b.marks⟩ :=
  rfl

theorem Reading.append_assoc (a b c : Reading) : a ++ b ++ c = a ++ (b ++ c) :=
  congrArg₂ Reading.mk (List.append_assoc _ _ _) (Nat.add_assoc _ _ _)

theorem Reading.append_empty (a : Reading) : a ++ ({} : Reading) = a :=
  congrArg₂ Reading.mk (List.append_nil _) rfl

theorem Reading.empty_append (a : Reading) : ({} : Reading) ++ a = a :=
  congrArg₂ Reading.mk rfl (Nat.zero_add _)

/-- Where a reader stands. -/
inductive Place where
  /-- Outside of all quotes. -/
  | outside
  /-- Behind an opening quote and some text. -/
  | inside (quote : Quote) (text : List Char)
  /-- Behind a quote character that closes its quote if it is not doubled. -/
  | leaving (quote : Quote) (text : List Char)
  deriving DecidableEq, Repr

/-- A reader of a text. -/
structure Lexer where
  /-- Where the reader stands. -/
  place : Place := .outside
  /-- What the reader has met. -/
  met : Reading := {}
  deriving DecidableEq, Repr

namespace Lexer

/-- The reader that has met something, at a character outside of quotes. -/
def outside (met : Reading) (c : Char) : Lexer :=
  match Quote.ofChar? c with
  | some quote => ⟨.inside quote [], met⟩
  | none => ⟨.outside, met ++ ⟨[], if c = '?' then 1 else 0⟩⟩

/-- The reader at a character. -/
def step (lexer : Lexer) (c : Char) : Lexer :=
  match lexer.place with
  | .outside => outside lexer.met c
  | .inside quote text =>
    if c = quote.char then ⟨.leaving quote text, lexer.met⟩
    else ⟨.inside quote (text ++ [c]), lexer.met⟩
  | .leaving quote text =>
    if c = quote.char then ⟨.inside quote (text ++ [c]), lexer.met⟩
    else outside (lexer.met ++ ⟨[⟨quote, String.ofList text⟩], 0⟩) c

variable {quote : Quote} {text : List Char} {met : Reading} {c : Char}

theorem step_outside : step ⟨.outside, met⟩ c = outside met c :=
  rfl

theorem step_inside_of_ne (h : c ≠ quote.char) :
    step ⟨.inside quote text, met⟩ c = ⟨.inside quote (text ++ [c]), met⟩ :=
  if_neg h

theorem step_inside_char :
    step ⟨.inside quote text, met⟩ quote.char = ⟨.leaving quote text, met⟩ :=
  if_pos rfl

theorem step_leaving_of_ne (h : c ≠ quote.char) :
    step ⟨.leaving quote text, met⟩ c =
      step ⟨.outside, met ++ ⟨[⟨quote, String.ofList text⟩], 0⟩⟩ c :=
  if_neg h

theorem step_leaving_char :
    step ⟨.leaving quote text, met⟩ quote.char = ⟨.inside quote (text ++ [quote.char]), met⟩ :=
  if_pos rfl

/-- What has been met at the end of a text, which must not stand inside a quote. -/
def finish (lexer : Lexer) : Option Reading :=
  match lexer.place with
  | .outside => some lexer.met
  | .inside .. => none
  | .leaving quote text => some (lexer.met ++ ⟨[⟨quote, String.ofList text⟩], 0⟩)

theorem finish_leaving :
    finish ⟨.leaving quote text, met⟩ = some (met ++ ⟨[⟨quote, String.ofList text⟩], 0⟩) :=
  rfl

end Lexer

/-- The quoted pieces of a text and the number of marks outside of them, if the text ends outside of
all quotes. -/
def read (cs : List Char) : Option Reading :=
  (cs.foldl Lexer.step {}).finish

/-! ### Putting texts together -/

variable {cs ds : List Char} {a b : Reading}

/-- A text does not start with a quote. -/
def StartsPlain : List Char → Prop
  | [] => True
  | c :: _ => Quote.ofChar? c = none

instance : ∀ cs : List Char, Decidable (StartsPlain cs)
  | [] => inferInstanceAs (Decidable True)
  | c :: _ => inferInstanceAs (Decidable (Quote.ofChar? c = none))

theorem startsPlain_nil : StartsPlain [] :=
  trivial

theorem startsPlain_cons {c : Char} (h : Quote.ofChar? c = none) (cs : List Char) :
    StartsPlain (c :: cs) :=
  h

theorem StartsPlain.append (hc : StartsPlain cs) (hd : StartsPlain ds) :
    StartsPlain (cs ++ ds) := by
  cases cs with
  | nil => exact hd
  | cons c cs => exact hc

theorem StartsPlain.append_of_ne_nil (hc : StartsPlain cs) (hne : cs ≠ []) (ds : List Char) :
    StartsPlain (cs ++ ds) := by
  cases cs with
  | nil => exact absurd rfl hne
  | cons c cs => exact hc

theorem startsPlain_flatMap {α : Type} {f : α → List Char} (h : ∀ x, StartsPlain (f x))
    (xs : List α) : StartsPlain (xs.flatMap f) := by
  induction xs with
  | nil => exact startsPlain_nil
  | cons x xs ih =>
    rw [List.flatMap_cons]
    exact (h x).append ih

/-- Reading a text from outside of quotes ends outside of them, and anything may follow. -/
def Stays (cs : List Char) (a : Reading) : Prop :=
  ∀ met, cs.foldl Lexer.step ⟨.outside, met⟩ = ⟨.outside, met ++ a⟩

/-- Reading a text from outside of quotes ends outside of them if no quote follows. -/
def Reads (cs : List Char) (a : Reading) : Prop :=
  ∀ met, (cs.foldl Lexer.step ⟨.outside, met⟩).finish = some (met ++ a)

theorem reads_nil : Reads [] {} :=
  fun met => congrArg some (Reading.append_empty met).symm

theorem Stays.reads (h : Stays cs a) : Reads cs a := by
  intro met
  rw [h met, Lexer.finish]

theorem Stays.append (hc : Stays cs a) (hd : Reads ds b) : Reads (cs ++ ds) (a ++ b) := by
  intro met
  rw [List.foldl_append, hc, hd, Reading.append_assoc]

/-- A quote that may have been closed has been closed if the next character is no quote. -/
private theorem finish_foldl {lexer : Lexer} (h : lexer.finish = some a) (hd : StartsPlain ds) :
    (ds.foldl Lexer.step lexer).finish = (ds.foldl Lexer.step ⟨.outside, a⟩).finish := by
  obtain ⟨place, met⟩ := lexer
  cases place with
  | outside =>
    obtain rfl : met = a := Option.some.inj h
    rfl
  | inside quote text => exact absurd h nofun
  | leaving quote text =>
    obtain rfl : met ++ ⟨[⟨quote, String.ofList text⟩], 0⟩ = a := Option.some.inj h
    cases ds with
    | nil => rfl
    | cons d ds =>
      have hplain : Quote.ofChar? d = none := hd
      have hne : d ≠ quote.char := by
        rintro rfl
        rw [Quote.ofChar?_char] at hplain
        exact absurd hplain nofun
      rw [List.foldl_cons, List.foldl_cons, Lexer.step_leaving_of_ne hne]

theorem Reads.append (hc : Reads cs a) (hd : Reads ds b) (hplain : StartsPlain ds) :
    Reads (cs ++ ds) (a ++ b) := by
  intro met
  rw [List.foldl_append, finish_foldl (hc met) hplain, hd, Reading.append_assoc]

theorem Reads.read_eq (h : Reads cs a) : read cs = some a := by
  rw [read, h, Reading.empty_append]

/-- Texts that start with no quote are read one after the other. -/
theorem reads_flatMap {α : Type} {f : α → List Char} {pieces : α → List Piece}
    (hreads : ∀ x, Reads (f x) ⟨pieces x, 0⟩) (hplain : ∀ x, StartsPlain (f x)) (xs : List α) :
    Reads (xs.flatMap f) ⟨xs.flatMap pieces, 0⟩ := by
  induction xs with
  | nil => exact reads_nil
  | cons x xs ih =>
    rw [List.flatMap_cons, List.flatMap_cons]
    exact (hreads x).append ih (startsPlain_flatMap hplain xs)

/-! ### Plain and quoted texts -/

/-- There is no quote in a text. -/
def IsPlain (cs : List Char) : Prop :=
  ∀ c ∈ cs, Quote.ofChar? c = none

instance (cs : List Char) : Decidable (IsPlain cs) :=
  List.decidableBAll (fun c => Quote.ofChar? c = none) cs

/-- A text without quotes is passed over, and its marks are counted. -/
theorem stays_of_plain (h : IsPlain cs) : Stays cs ⟨[], cs.count '?'⟩ := by
  induction cs with
  | nil =>
    intro met
    rw [List.foldl_nil, List.count_nil, Reading.append_empty]
  | cons c cs ih =>
    obtain ⟨hc, hcs⟩ := List.forall_mem_cons.1 h
    intro met
    have hmarks : (⟨[], if c = '?' then 1 else 0⟩ ++ ⟨[], cs.count '?'⟩ : Reading) =
        ⟨[], (c :: cs).count '?'⟩ := by
      rw [List.count_cons, Nat.add_comm, beq_eq_decide]
      simp only [decide_eq_true_eq]
      rfl
    rw [List.foldl_cons, Lexer.step_outside, Lexer.outside, hc, ih hcs, Reading.append_assoc,
      hmarks]

theorem stays_of_quiet (h : Text.Quiet cs) : Stays cs {} := by
  have hmarks : cs.count '?' = 0 := List.count_eq_zero.2 fun hmem => (h _ hmem).2.2 rfl
  have hplain : IsPlain cs := fun c hmem =>
    Quote.ofChar?_eq_none_iff.2 ⟨(h c hmem).1, (h c hmem).2.1⟩
  have hstays := stays_of_plain hplain
  rwa [hmarks] at hstays

private theorem foldl_doubled (quote : Quote) (cs text : List Char) (met : Reading) :
    (Text.doubled quote.char cs).foldl Lexer.step ⟨.inside quote text, met⟩ =
      ⟨.inside quote (text ++ cs), met⟩ := by
  induction cs generalizing text with
  | nil => rw [Text.doubled, List.foldl_nil, List.append_nil]
  | cons c cs ih =>
    have hshift : text ++ c :: cs = text ++ [c] ++ cs := List.append_cons text c cs
    rw [Text.doubled]
    by_cases h : c = quote.char
    · subst h
      rw [if_pos rfl, List.foldl_cons, List.foldl_cons, Lexer.step_inside_char,
        Lexer.step_leaving_char, ih, hshift]
    · rw [if_neg h, List.foldl_cons, Lexer.step_inside_of_ne h, ih, hshift]

/-- A text between quotes is read back, whatever it contains. -/
theorem reads_quoted (quote : Quote) (s : String) :
    Reads (Text.quoted quote.char s.toList) ⟨[⟨quote, s⟩], 0⟩ := by
  intro met
  rw [Text.quoted, List.foldl_cons, Lexer.step_outside, Lexer.outside, Quote.ofChar?_char,
    List.foldl_append, foldl_doubled, List.foldl_cons, List.foldl_nil, Lexer.step_inside_char,
    Lexer.finish_leaving, List.nil_append, String.ofList_toList]

/-- Quotes and marks inside of quotes are text. -/
example : read "\"a\"\"?\" = ? AND b = 'it''s'".toList =
    some ⟨[.name "a\"?", .literal "it's"], 1⟩ := by decide

theorem reads_name (s : String) : Reads (name s) ⟨[.name s], 0⟩ :=
  reads_quoted .double s

theorem reads_text (s : String) : Reads (Text.literal s) ⟨[.literal s], 0⟩ :=
  reads_quoted .single s

theorem reads_names (names : List String) :
    Reads (Template.names names) ⟨names.map Piece.name, 0⟩ := by
  induction names with
  | nil => exact reads_nil
  | cons first names ih =>
    cases names with
    | nil =>
      rw [Template.names_singleton]
      exact reads_name first
    | cons second names =>
      have hcomma : Stays [','] {} := stays_of_quiet (by decide)
      rw [Template.names_cons_cons]
      exact (reads_name first).append (hcomma.append ih) (startsPlain_cons rfl _)

/-! ### Literals -/

end Query

namespace Value

mutual

/-- The quoted texts inside the literal of a value: texts and malformed identifiers as they are, and
the texts of addresses. -/
def pieces : Value → List Query.Piece
  | text s => [.literal s]
  | uuid s =>
    match Uuid.read s with
    | .ok _ => []
    | .error _ => [.literal s]
  | inet a => [.literal (String.ofList a.write)]
  | list items => piecesOf items
  | bigInt _ | int _ | smallInt _ | tinyInt _ | timestamp _ | boolean _ | double _ | float _
  | blob _ => []

/-- The quoted texts inside the literals of several values. -/
def piecesOf : List Value → List Query.Piece
  | [] => []
  | item :: rest => pieces item ++ piecesOf rest

end

end Value

/-- The field of a restriction and the quoted texts of its value. -/
def Restriction.pieces (r : Restriction) : List Query.Piece :=
  .name r.field :: r.value.pieces

namespace Query

mutual

/-- The quoted texts inside a literal are read back, and there is no mark outside of them. -/
theorem reads_literal : ∀ value : Value, Reads value.literal ⟨value.pieces, 0⟩
  | .text s => by
    rw [Value.literal, Value.pieces]
    exact reads_text s
  | .bigInt n | .int n | .smallInt n | .tinyInt n | .timestamp n => by
    rw [Value.literal, Value.pieces]
    exact (stays_of_quiet (Text.quiet_integer _)).reads
  | .boolean b => by
    rw [Value.literal, Value.pieces]
    cases b <;> exact (stays_of_quiet (by decide)).reads
  | .double x | .float x => by
    rw [Value.literal, Value.pieces]
    exact (stays_of_quiet (Decimal.Style.quiet_write _ _)).reads
  | .blob bytes => by
    have hhead : Text.Quiet ['0', 'x'] := by decide
    rw [Value.literal, Value.pieces]
    exact (stays_of_quiet (hhead.append (Text.Hex.quiet_encode bytes))).reads
  | .uuid s => by
    rw [Value.literal, Value.pieces]
    cases Uuid.read s with
    | ok bytes => exact (stays_of_quiet (Uuid.quiet_write bytes)).reads
    | error _ => exact reads_text s
  | .inet a => by
    have hquoted : Text.literal (String.ofList a.write) = '\'' :: (a.write ++ ['\'']) := by
      rw [Text.literal, Text.quoted, String.toList_ofList, a.quiet_write.doubled_eq]
    rw [Value.literal, Value.pieces, ← hquoted]
    exact reads_text _
  | .list items => by
    have hopen : Stays ['('] {} := stays_of_quiet (by decide)
    have hclose : Stays [')'] {} := stays_of_quiet (by decide)
    have hall := hopen.append ((reads_literals items).append hclose.reads (by decide))
    rw [Reading.append_empty, Reading.empty_append] at hall
    rw [Value.literal, Value.pieces]
    exact hall

/-- The quoted texts inside several literals are read back in order. -/
theorem reads_literals : ∀ items : List Value,
    Reads (Value.literals items) ⟨Value.piecesOf items, 0⟩
  | [] => by
    rw [Value.literals, Value.piecesOf]
    exact reads_nil
  | [item] => by
    rw [Value.literals, Value.piecesOf, Value.piecesOf, List.append_nil]
    exact reads_literal item
  | item :: second :: rest => by
    have hcomma : Stays [','] {} := stays_of_quiet (by decide)
    have hrest := hcomma.append (reads_literals (second :: rest))
    rw [Reading.empty_append] at hrest
    rw [Value.literals, Value.piecesOf]
    · exact (reads_literal item).append hrest (startsPlain_cons rfl _)
    · exact nofun

end

/-! ### Filters -/

private theorem startsPlain_and (cs : List Char) : StartsPlain (" AND ".toList ++ cs) :=
  StartsPlain.append_of_ne_nil (by decide) (by decide) cs

theorem reads_restriction (r : Restriction) : Reads (restriction r) ⟨r.pieces, 0⟩ := by
  have hand : Stays " AND ".toList {} := stays_of_quiet (by decide)
  have hsign : Stays (' ' :: (r.comparison.sign.toList ++ [' '])) {} :=
    stays_of_quiet (by cases r.comparison <;> decide)
  have hvalue := hsign.append (reads_literal r.value)
  have hplain : StartsPlain (' ' :: (r.comparison.sign.toList ++ [' ']) ++ r.value.literal) :=
    StartsPlain.append_of_ne_nil (by cases r.comparison <;> decide) (List.cons_ne_nil _ _) _
  have hall := hand.append ((reads_name r.field).append hvalue hplain)
  rw [Reading.empty_append, Reading.empty_append, List.cons_append, List.append_assoc] at hall
  exact hall

theorem reads_expression (column text : String) :
    Reads (expression column text) ⟨[.name column, .literal text], 0⟩ := by
  have hand : Stays " AND ".toList {} := stays_of_quiet (by decide)
  have hequals : Stays " = ".toList {} := stays_of_quiet (by decide)
  have hall := hand.append ((reads_name column).append (hequals.append (reads_text text))
    (StartsPlain.append_of_ne_nil (by decide) (by decide) _))
  rw [Reading.empty_append, Reading.empty_append] at hall
  exact hall

/-- The fields and texts of restrictions, and the indexed column with each expression. -/
def filterPieces (expressions : Dictionary) (restrictions : List Restriction)
    (indexed : Option String) : List Piece :=
  restrictions.flatMap Restriction.pieces ++
    match indexed with
    | some column => expressions.texts.flatMap fun text => [.name column, .literal text]
    | none => []

theorem startsPlain_standardFilters (expressions : Dictionary) (restrictions : List Restriction)
    (indexed : Option String) : StartsPlain (standardFilters expressions restrictions indexed) := by
  refine (startsPlain_flatMap (fun r => startsPlain_and _) restrictions).append ?_
  cases indexed with
  | none => exact startsPlain_nil
  | some column => exact startsPlain_flatMap (fun text => startsPlain_and _) expressions.texts

theorem reads_standardFilters (expressions : Dictionary) (restrictions : List Restriction)
    (indexed : Option String) : Reads (standardFilters expressions restrictions indexed)
      ⟨filterPieces expressions restrictions indexed, 0⟩ := by
  have hrestrictions := reads_flatMap reads_restriction (fun r => startsPlain_and _) restrictions
  cases indexed with
  | none => exact hrestrictions.append reads_nil startsPlain_nil
  | some column =>
    exact hrestrictions.append
      (reads_flatMap (reads_expression column) (fun text => startsPlain_and _) expressions.texts)
      (startsPlain_flatMap (fun text => startsPlain_and _) expressions.texts)

end Query

/-! ### The statement of a scan -/

/-- The names and texts of a job that stand between quotes in its statement: if columns are wanted,
the columns of the partition key, the clustering columns and the other wanted columns, trimmed; the
table; the columns of the partition key for either bound; and what the filters quote. -/
def Job.pieces (job : Job) (keys : KeyLayout) (table : Table) : List Query.Piece :=
  let partition := keys.partition.map (·.name)
  let clustering := keys.clustering.map (·.name)
  let others := (job.columns.map Text.trim).filter (· ∉ partition ++ clustering)
  let selected := if job.columns = [] then [] else partition ++ clustering ++ others
  (selected ++ job.table :: (partition ++ partition)).map Query.Piece.name ++
    Query.filterPieces job.indexExpressions job.restrictions table.customIndex?

namespace Template

open Query

/-- The selected names are the key columns and the other wanted columns, trimmed. -/
theorem selected_eq_append (keys : KeyLayout) (columns : List String) :
    selected keys columns = keys.partition.map (·.name) ++ keys.clustering.map (·.name) ++
      (columns.map Text.trim).filter
        (· ∉ keys.partition.map (·.name) ++ keys.clustering.map (·.name)) := by
  have hnames : keys.names = keys.partition.map (·.name) ++ keys.clustering.map (·.name) :=
    List.map_append
  rw [selected, hnames]
  refine congrArg _ (List.filter_congr fun name _ => ?_)
  rw [KeyLayout.isKey, hnames, List.contains_eq_mem, decide_not]

theorem reads_selectionOf (keys : KeyLayout) (columns : List String) :
    Reads (selectionOf keys columns)
      ⟨(if columns = [] then [] else selected keys columns).map Piece.name, 0⟩ := by
  cases columns with
  | nil =>
    have hall : Stays ['*'] {} := stays_of_quiet (by decide)
    exact hall.reads
  | cons column columns => exact reads_names (selected keys (column :: columns))

/-- The two marks of a condition stand outside of all quotes. -/
theorem reads_bounds (template : Template) {columns : List String}
    (hnames : template.keyNames = names columns) :
    Reads template.bounds ⟨(columns ++ columns).map Piece.name, 2⟩ := by
  have hwhere : Stays " WHERE token(".toList {} := stays_of_quiet (by decide)
  have hbetween : Stays ") > ? AND token(".toList ⟨[], 1⟩ := stays_of_plain (by decide)
  have hend : Stays ") <= ?".toList ⟨[], 1⟩ := stays_of_plain (by decide)
  have hcolumns : Reads template.keyNames ⟨columns.map Piece.name, 0⟩ :=
    hnames ▸ reads_names columns
  have hall := hwhere.append (hcolumns.append (hbetween.append
    (hcolumns.append hend.reads (by decide)))
      (StartsPlain.append_of_ne_nil (by decide) (by decide) _))
  simp only [Reading.append_def, List.nil_append, List.append_nil, Nat.zero_add, Nat.reduceAdd]
    at hall
  rw [List.map_append]
  exact hall

/-- **Nothing of a job escapes its quotes.** Whatever the table, the key columns, the wanted
columns, the restrictions, the expressions and the indexed column are, the text of the statement
that scans a split ends outside of all quotes, its quoted pieces are the names and texts of the job
in their order, and outside of them it has two marks, one for each value that is bound. -/
theorem read_rangeText (job : Job) (keys : KeyLayout) (table : Table) (partitioner : Partitioner)
    (split : Split) :
    let template := ofJob standardFilters job keys table
    ∃ statement, template.statement? none keys.shape partitioner split = .ok (some statement) ∧
      statement.query = String.ofList template.rangeText ∧ statement.values.length = 2 ∧
      read statement.query.toList = some ⟨job.pieces keys table, statement.values.length⟩ := by
  intro template
  have hselect : Stays "SELECT ".toList {} := stays_of_quiet (by decide)
  have hfrom : Stays " FROM ".toList {} := stays_of_quiet (by decide)
  have hallow : Stays " ALLOW FILTERING".toList {} := stays_of_quiet (by decide)
  have hfilters := (reads_standardFilters job.indexExpressions job.restrictions
    table.customIndex?).append hallow.reads (by decide)
  have hbounds := (reads_bounds template rfl).append hfilters
    ((startsPlain_standardFilters _ _ _).append (by decide))
  have htable := (reads_name job.table).append hbounds
    (StartsPlain.append_of_ne_nil (StartsPlain.append_of_ne_nil (by decide) (by decide) _)
      (List.append_ne_nil_of_left_ne_nil (by decide) _) _)
  have hall := hselect.append ((reads_selectionOf keys job.columns).append (hfrom.append htable)
    (StartsPlain.append_of_ne_nil (by decide) (by decide) _))
  have hpieces : Reads template.rangeText ⟨job.pieces keys table, 2⟩ := by
    simp only [Reading.append_def, List.nil_append, List.append_nil, Nat.zero_add, Nat.add_zero,
      selected_eq_append, List.map_append, List.append_assoc, List.singleton_append] at hall
    simp only [Job.pieces, List.map_append, List.map_cons, List.append_assoc, List.cons_append]
    exact hall
  refine ⟨_, rfl, rfl, rfl, ?_⟩
  rw [String.toList_ofList]
  exact hpieces.read_eq

/-- Of two columns that a custom index covers, the last one is compared with the expression. -/
theorem read_rangeText_indexed :
    let id : Column := { name := "id", type := .int }
    let title : Column := Column.indexed { name := "title", type := .text }
    let body : Column := Column.indexed { name := "b\"ody?", type := .text }
    let keys : KeyLayout := ⟨id, [], []⟩
    let table : Table := ⟨[id], [], [id, title, body]⟩
    let job : Job :=
      { keyspace := "ks", table := "t", indexExpressions := .ofList [("words", "it's ?")] }
    table.customIndex? = some body.name ∧
    ∃ statement,
      (ofJob standardFilters job keys table).statement? none keys.shape .hashed
        ⟨.long 0, .long 1, []⟩ = .ok (some statement) ∧
      statement.query = "SELECT * FROM \"t\" WHERE token(\"id\") > ? AND token(\"id\") <= ?" ++
        " AND \"b\"\"ody?\" = 'it''s ?' ALLOW FILTERING" ∧
      read statement.query.toList =
        some ⟨[.name "t", .name "id", .name "id", .name body.name, .literal "it's ?"], 2⟩ := by
  intro id title body keys table job
  have hindexed : table.customIndex? = some body.name :=
    Table.customIndex?_eq_some_iff.2 ⟨[id, title], body, [], rfl, rfl, nofun, rfl⟩
  have hpieces : job.pieces keys table =
      [.name "t", .name "id", .name "id", .name body.name, .literal "it's ?"] := rfl
  obtain ⟨statement, hstatement, hquery, hvalues, hread⟩ :=
    read_rangeText job keys table .hashed ⟨.long 0, .long 1, []⟩
  refine ⟨hindexed, statement, hstatement, hquery.trans (by decide), ?_⟩
  rw [hread, hpieces, hvalues]

end Template

end RingScan
