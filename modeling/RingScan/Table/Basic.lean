import RingScan.Column.Type

/-!
# Tables

The columns of a table.  The columns of the partition key and the clustering columns are named in
key order; the list of all columns repeats them among the others.

## Main definitions

* `Column`, `Table`: a column and the columns of a table.
* `Table.customIndex?`: the column that a custom index covers.

## Main statements

* `Table.customIndex?_eq_some_iff`: it is the last one of several such columns.
-/

namespace RingScan

/-- A column of a table. -/
structure Column where
  /-- The name of the column. -/
  name : String
  /-- The type of its cells. -/
  type : ColumnType
  /-- A custom index covers the column. -/
  hasCustomIndex : Bool := false
  deriving DecidableEq, Repr

/-- A column that a custom index covers. -/
def Column.indexed (column : Column) : Column :=
  { column with hasCustomIndex := true }

/-- The columns of a table. -/
structure Table where
  /-- The columns of the partition key. -/
  partitionKey : List Column
  /-- The columns that order the rows of a partition. -/
  clustering : List Column := []
  /-- All columns. -/
  columns : List Column
  deriving DecidableEq, Repr

/-- The name of the last column that a custom index covers. -/
def Table.customIndex? (table : Table) : Option String :=
  (table.columns.reverse.find? (·.hasCustomIndex)).map (·.name)

/-- Behind the indexed column there is no other one that a custom index covers. -/
theorem Table.customIndex?_eq_some_iff {table : Table} {name : String} :
    table.customIndex? = some name ↔
      ∃ before column after, table.columns = before ++ column :: after ∧
        column.hasCustomIndex = true ∧ (∀ other ∈ after, other.hasCustomIndex = false) ∧
        column.name = name := by
  simp only [customIndex?, Option.map_eq_some_iff, List.find?_eq_some_iff_append,
    List.reverse_eq_append_iff, List.reverse_cons, List.append_assoc, List.singleton_append,
    Bool.not_eq_true']
  constructor
  · rintro ⟨column, ⟨hflag, last, first, hcolumns, hlast⟩, hname⟩
    exact ⟨first.reverse, column, last.reverse, hcolumns, hflag,
      fun other hother => hlast other (List.mem_reverse.1 hother), hname⟩
  · rintro ⟨before, column, after, hcolumns, hflag, hafter, hname⟩
    refine ⟨column, ⟨hflag, after.reverse, before.reverse, ?_, fun other hother =>
      hafter other (List.mem_reverse.1 hother)⟩, hname⟩
    rw [hcolumns, List.reverse_reverse, List.reverse_reverse]

end RingScan
