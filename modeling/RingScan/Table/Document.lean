import RingScan.Document.Collect
import RingScan.Document.Writer
import RingScan.Table.Basic

/-!
# Tables in documents

## Main definitions

* `Column.write`, `Column.reader`: a column, which has no custom index unless it says so.
* `Table.write`, `Table.reader`: a table, which may leave out its clustering columns.
-/

namespace RingScan

open Document

/-- The name of a column type that stands in a document. -/
def ColumnType.reader : Reader ColumnType := fun s => do
  let (name, s) ← Document.text s
  match ColumnType.ofName? name with
  | some type => .ok (type, s)
  | none => .error .shape

namespace Column

/-- The document of a column. -/
def write (column : Column) : List Char :=
  writeMembers [("name", writeText column.name), ("type", writeText column.type.name),
    ("has_custom_index", writeBoolean column.hasCustomIndex)]

/-- What has been read of a column. -/
structure Draft where
  /-- The name of the column. -/
  name : Option String := none
  /-- The type of its cells. -/
  type : Option ColumnType := none
  /-- A custom index covers the column. -/
  hasCustomIndex : Option Bool := none

/-- The members of a column. -/
def fields : List (Member Draft) :=
  [Member.slot "name" Draft.name (fun d x => { d with name := some x }) text,
    Member.slot "type" Draft.type (fun d x => { d with type := some x }) ColumnType.reader,
    Member.slot "has_custom_index" Draft.hasCustomIndex
      (fun d x => { d with hasCustomIndex := some x }) boolean]

/-- The column of what has been read. -/
def Draft.finish (d : Draft) : Option Column := do
  some ⟨← d.name, ← d.type, d.hasCustomIndex.getD false⟩

/-- Reads a column. -/
def reader : Reader Column :=
  record fields {} Draft.finish

end Column

namespace Table

/-- The document of a table. -/
def write (table : Table) : List Char :=
  writeMembers [("partition_key", writeList (table.partitionKey.map Column.write)),
    ("clustering_columns", writeList (table.clustering.map Column.write)),
    ("columns", writeList (table.columns.map Column.write))]

/-- What has been read of a table. -/
structure Draft where
  /-- The columns of the partition key. -/
  partitionKey : Option (List Column) := none
  /-- The clustering columns. -/
  clustering : Option (List Column) := none
  /-- All columns. -/
  columns : Option (List Column) := none

/-- The members of a table. -/
def fields : List (Member Draft) :=
  [Member.slot "partition_key" Draft.partitionKey (fun d x => { d with partitionKey := some x })
      (sequence Column.reader),
    Member.slot "clustering_columns" Draft.clustering (fun d x => { d with clustering := some x })
      (sequence Column.reader),
    Member.slot "columns" Draft.columns (fun d x => { d with columns := some x })
      (sequence Column.reader)]

/-- The table of what has been read. -/
def Draft.finish (d : Draft) : Option Table := do
  some ⟨← d.partitionKey, d.clustering.getD [], ← d.columns⟩

/-- Reads a table. -/
def reader : Reader Table :=
  record fields {} Draft.finish

end Table

end RingScan
