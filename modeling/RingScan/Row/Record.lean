import RingScan.Row.Cells
import RingScan.Table.Keys

/-!
# Records

A record is what a reader hands out for a row: the cells of the key columns and those of the other
columns that were asked for.

## Main definitions

* `Record`: key cells and value cells.
* `RowLayout`: which columns of a row go where.
* `RowLayout.record`: the record of a row.
-/

namespace RingScan

/-- The cells of a row that were asked for. -/
structure Record where
  /-- The cells of the key columns. -/
  keys : Cells
  /-- The cells of other columns. -/
  values : Cells
  deriving DecidableEq, Repr

/-- The bytes of all cells of a record. -/
def Record.byteCount (record : Record) : Nat :=
  record.keys.byteCount + record.values.byteCount

/-- Which columns of a row go where. -/
structure RowLayout where
  /-- The names of the key columns. -/
  keyColumns : List String
  /-- The names of the other columns. -/
  valueColumns : List String
  deriving DecidableEq, Repr

namespace RowLayout

/-- The layout of the rows of a table, of whose other columns the wanted ones are kept. -/
def ofTable (keys : KeyLayout) (table : Table) (isWanted : String → Bool) : RowLayout where
  keyColumns := keys.names
  valueColumns :=
    (table.columns.map (·.name)).filter fun name => !keys.isKey name && isWanted name

/-- The cells of a row under the given names; a cell that the row lacks is null. -/
def select (names : List String) (row : Cells) : Cells :=
  Cells.ofList (names.map fun name => (name, row.value? name))

/-- The record of a row. -/
def record (layout : RowLayout) (row : Cells) : Record :=
  ⟨select layout.keyColumns row, select layout.valueColumns row⟩

end RowLayout

end RingScan
