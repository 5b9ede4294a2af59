import RingScan.Job.Basic
import RingScan.Value.Document

/-!
# Jobs in documents

A job may leave out all members but the keyspace and the table.  A value inside a job stands inside
other collections already, so it may open fewer of its own.

## Main definitions

* `Lookup.reader`, `Restriction.reader`: read the parts of a job.
* `Job.write`, `Job.reader`: a job.
* `Job.load`: the job of a text, which has to meet what every job has to meet.
-/

namespace RingScan

open Document

namespace Lookup

/-- The document of a lookup. -/
def write (lookup : Lookup) : List Char :=
  writeMembers [("equals_field", writeText lookup.equalsField),
    ("equals_value", lookup.equalsValue.write), ("in_field", writeText lookup.inField),
    ("in_values", writeList (lookup.inValues.map Value.write))]

/-- What has been read of a lookup. -/
structure Draft where
  /-- The field with one value. -/
  equalsField : Option String := none
  /-- The value of the first field. -/
  equalsValue : Option Value := none
  /-- The field with several values. -/
  inField : Option String := none
  /-- The values of the second field. -/
  inValues : Option (List Value) := none

/-- The members of a lookup that may open the given number of collections. -/
def fields (levels : Nat) : List (Member Draft) :=
  [Member.slot "equals_field" Draft.equalsField (fun d x => { d with equalsField := some x }) text,
    Member.slot "equals_value" Draft.equalsValue (fun d x => { d with equalsValue := some x })
      (Value.reader (levels - 1)),
    Member.slot "in_field" Draft.inField (fun d x => { d with inField := some x }) text,
    Member.slot "in_values" Draft.inValues (fun d x => { d with inValues := some x })
      (sequence (Value.reader (levels - 2)))]

/-- The lookup of what has been read. -/
def Draft.finish (d : Draft) : Option Lookup := do
  some ⟨← d.equalsField, ← d.equalsValue, ← d.inField, ← d.inValues⟩

/-- Reads a lookup that may open the given number of collections. -/
def reader (levels : Nat) : Reader Lookup :=
  record (fields levels) {} Draft.finish

end Lookup

namespace Restriction

/-- The document of a restriction. -/
def write (restriction : Restriction) : List Char :=
  writeMembers [("field", writeText restriction.field),
    ("operator", writeText restriction.comparison.tag), ("value", restriction.value.write)]

/-- What has been read of a restriction. -/
structure Draft where
  /-- The column that is compared. -/
  field : Option String := none
  /-- How it is compared. -/
  comparison : Option Comparison := none
  /-- The value that it is compared with. -/
  value : Option Value := none

/-- The members of a restriction that may open the given number of collections. -/
def fields (levels : Nat) : List (Member Draft) :=
  [Member.slot "field" Draft.field (fun d x => { d with field := some x }) text,
    Member.slot "operator" Draft.comparison (fun d x => { d with comparison := some x })
      (choice Comparison.ofTag?),
    Member.slot "value" Draft.value (fun d x => { d with value := some x })
      (Value.reader (levels - 1))]

/-- The restriction of what has been read. -/
def Draft.finish (d : Draft) : Option Restriction := do
  some ⟨← d.field, ← d.comparison, ← d.value⟩

/-- Reads a restriction that may open the given number of collections. -/
def reader (levels : Nat) : Reader Restriction :=
  record (fields levels) {} Draft.finish

end Restriction

namespace Dictionary

/-- The document of a dictionary. -/
def write (dictionary : Dictionary) : List Char :=
  writeMembers (dictionary.entries.map fun entry => (entry.1, writeText entry.2))

/-- Reads a dictionary. -/
def reader : Reader Dictionary := fun s =>
  (mapping text s).map fun p => (ofList p.1, p.2)

end Dictionary

namespace Job

/-- The document of a job. -/
def write (job : Job) : List Char :=
  writeMembers [("keyspace", writeText job.keyspace), ("table", writeText job.table),
    ("input_columns", writeList (job.columns.map writeText)),
    ("page_size", writeInteger job.pageSize.toNat), ("partitioner", writeText job.partitioner),
    ("equals_in", (job.lookup.map Lookup.write).getD writeNull),
    ("filters", writeList (job.restrictions.map Restriction.write)),
    ("additional_filters", job.indexExpressions.write),
    ("local_addresses", writeList (job.localAddresses.map writeText))]

/-- What has been read of a job. -/
structure Draft where
  /-- The keyspace of the table. -/
  keyspace : Option String := none
  /-- The table. -/
  table : Option String := none
  /-- The columns that are wanted. -/
  columns : Option (List String) := none
  /-- The rows of a page. -/
  pageSize : Option Nat := none
  /-- The identifier of the partitioner. -/
  partitioner : Option String := none
  /-- The keys that are looked up, or that there are none. -/
  lookup : Option (Option Lookup) := none
  /-- What the rows have to meet. -/
  restrictions : Option (List Restriction) := none
  /-- Expressions for the column that a custom index covers. -/
  indexExpressions : Option Dictionary := none
  /-- Addresses of the machine that the scan runs on. -/
  localAddresses : Option (List String) := none

/-- The members of a job. -/
def fields : List (Member Draft) :=
  [Member.slot "keyspace" Draft.keyspace (fun d x => { d with keyspace := some x }) text,
    Member.slot "table" Draft.table (fun d x => { d with table := some x }) text,
    Member.slot "input_columns" Draft.columns (fun d x => { d with columns := some x })
      (sequence text),
    Member.slot "page_size" Draft.pageSize (fun d x => { d with pageSize := some x })
      (natural (Nat.pow 2 64 - 1)),
    Member.slot "partitioner" Draft.partitioner (fun d x => { d with partitioner := some x }) text,
    Member.slot "equals_in" Draft.lookup (fun d x => { d with lookup := some x })
      (optional (Lookup.reader (deepest - 1))),
    Member.slot "filters" Draft.restrictions (fun d x => { d with restrictions := some x })
      (sequence (Restriction.reader (deepest - 2))),
    Member.slot "additional_filters" Draft.indexExpressions
      (fun d x => { d with indexExpressions := some x }) Dictionary.reader,
    Member.slot "local_addresses" Draft.localAddresses
      (fun d x => { d with localAddresses := some x }) (sequence text)]

/-- The job of what has been read. -/
def Draft.finish (d : Draft) : Option Job := do
  let bare : Job := { keyspace := ← d.keyspace, table := ← d.table }
  some { bare with
    columns := d.columns.getD bare.columns
    pageSize := (d.pageSize.map UInt64.ofNat).getD bare.pageSize
    partitioner := d.partitioner.getD bare.partitioner
    lookup := d.lookup.getD bare.lookup
    restrictions := d.restrictions.getD bare.restrictions
    indexExpressions := d.indexExpressions.getD bare.indexExpressions
    localAddresses := d.localAddresses.getD bare.localAddresses }

/-- Reads a job. -/
def reader : Reader Job :=
  record fields {} Draft.finish

/-- Why a text is no job that can be run. -/
inductive LoadFault where
  /-- The text is no document of a job. -/
  | unreadable (fault : Document.Fault)
  /-- The job does not meet what every job has to meet. -/
  | invalid (fault : ConfigurationFault)
  deriving DecidableEq, Repr

/-- What was being done when a text was refused. -/
def LoadFault.context : LoadFault → String
  | unreadable _ => "parse job config json"
  | invalid _ => "validate job config"

/-- The job of a text. -/
def load (text : String) : Except LoadFault Job := do
  let job ← (parse reader text).mapError .unreadable
  job.check.mapError .invalid
  .ok job

end Job

end RingScan
