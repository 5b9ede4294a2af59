import RingScan.Query.Candidates
import RingScan.Query.Filters
import RingScan.Table.Keys

/-!
# Statements

The statement that reads one split of a table.  What does not depend on the split is put together
once, as a template.

## Main definitions

* `Statement`: the text of a statement and the values that are bound to its marks.
* `Template`: the parts of a statement that do not depend on the split.
* `Template.ofJob`: the template of a job.
* `Template.rangeText`, `Template.lookupText`: the texts of the two kinds of statements.
* `Template.statement?`: the statement for a split.
-/

namespace RingScan

/-- A statement. -/
structure Statement where
  /-- The text, with a mark for each value. -/
  query : String
  /-- The values that are bound to the marks, in order. -/
  values : List Value
  /-- The rows of a page. -/
  pageSize : UInt64
  deriving DecidableEq, Repr

/-- The parts of a statement that do not depend on the split. -/
structure Template where
  /-- The columns that are selected. -/
  selection : List Char
  /-- The table. -/
  table : List Char
  /-- The columns of the partition key. -/
  keyNames : List Char
  /-- What narrows a scan. -/
  filters : List Char
  /-- The rows of a page. -/
  pageSize : UInt64
  deriving DecidableEq, Repr

namespace Template

/-- Names with commas between them. -/
def names (names : List String) : List Char :=
  [','].intercalate (names.map Query.name)

theorem names_singleton (name : String) : names [name] = Query.name name := by
  simp [names, List.intercalate]

/-- A comma stands between a name and the next one. -/
theorem names_cons_cons (first second : String) (rest : List String) :
    names (first :: second :: rest) = Query.name first ++ ',' :: names (second :: rest) := by
  simp [names, List.intercalate]

/-- The names that are selected for the wanted columns: those of the key columns, and then those of
the wanted columns that are no key columns, trimmed. -/
def selected (keys : KeyLayout) (columns : List String) : List String :=
  keys.names ++ (columns.map Text.trim).filter (!keys.isKey ·)

/-- The selection for the wanted columns; if there are none, all columns are selected. -/
def selectionOf (keys : KeyLayout) (columns : List String) : List Char :=
  if columns.isEmpty then ['*'] else names (selected keys columns)

/-- The template of a job. -/
def ofJob (filters : Query.Filters) (job : Job) (keys : KeyLayout) (table : Table) : Template where
  selection := selectionOf keys job.columns
  table := Query.name job.table
  keyNames := names (keys.partition.map (·.name))
  filters := filters job.indexExpressions job.restrictions table.customIndex?
  pageSize := job.pageSize

/-- The condition that a row lies in a split, whose two bounds are bound to the marks. -/
def bounds (template : Template) : List Char :=
  " WHERE token(".toList ++ (template.keyNames ++ (") > ? AND token(".toList ++
    (template.keyNames ++ ") <= ?".toList)))

/-- The text of a statement that scans a split. -/
def rangeText (template : Template) : List Char :=
  "SELECT ".toList ++ (template.selection ++ (" FROM ".toList ++ (template.table ++
    (template.bounds ++ (template.filters ++ " ALLOW FILTERING".toList)))))

/-- The text of a statement that looks keys up; the two fields are written as they are. -/
def lookupText (template : Template) (equalsField inField : String) : List Char :=
  "SELECT ".toList ++ (template.selection ++ (" FROM ".toList ++ (template.table ++
    (" WHERE ".toList ++ (equalsField.toList ++ (" = ? AND ".toList ++ (inField.toList ++
      " IN ?".toList)))))))

/-- The statement for a split.  There is none for a lookup of which no candidate lies in the
split. -/
def statement? (template : Template) (lookup : Option Lookup) (shape : KeyShape)
    (partitioner : Partitioner) (split : Split) : Except Failure (Option Statement) :=
  match lookup with
  | none => .ok (some ⟨String.ofList template.rangeText, split.bounds, template.pageSize⟩)
  | some lookup => do
    match ← lookup.retained shape partitioner split with
    | [] => .ok none
    | candidates =>
      let query := template.lookupText lookup.equalsField lookup.inField
      .ok (some ⟨String.ofList query, [lookup.equalsValue, .list candidates], template.pageSize⟩)

end Template

end RingScan
