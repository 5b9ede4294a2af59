import RingScan.Dictionary
import RingScan.Ring.Partitioner
import RingScan.Text.Blank

/-!
# Jobs

A job says what is to be read of one table: which columns, in pages of which size, under which
restrictions.  Instead of scanning a slice of the ring it may look up given keys.

## Main definitions

* `Lookup`: the keys that are looked up instead of a scan.
* `Comparison`, `Restriction`: what a row has to meet.
* `Job`: the settings of a scan.
* `Job.check`: what every job has to meet.
* `RetryPolicy`: how often a statement is tried.
-/

namespace RingScan

/-- The keys that are looked up instead of a scan: one value for one field and any of several
values for another. -/
structure Lookup where
  /-- The field with one value. -/
  equalsField : String
  /-- The value of the first field. -/
  equalsValue : Value
  /-- The field with several values. -/
  inField : String
  /-- The values of the second field. -/
  inValues : List Value
  deriving DecidableEq, Repr

/-- How the cell of a row is compared with a value. -/
inductive Comparison where
  | equal
  | greater
  | greaterOrEqual
  | less
  | lessOrEqual
  deriving DecidableEq, Repr

namespace Comparison

/-- The sign of a comparison in a statement. -/
def sign : Comparison → String
  | equal => "="
  | greater => ">"
  | greaterOrEqual => ">="
  | less => "<"
  | lessOrEqual => "<="

/-- The name of a comparison in a document. -/
def tag : Comparison → String
  | equal => "eq"
  | greater => "gt"
  | greaterOrEqual => "gt_eq"
  | less => "lt"
  | lessOrEqual => "lt_eq"

/-- The comparison that a name in a document stands for. -/
def ofTag? (tag : String) : Option Comparison :=
  [equal, greater, greaterOrEqual, less, lessOrEqual].find? (·.tag == tag)

end Comparison

/-- What a row has to meet. -/
structure Restriction where
  /-- The column that is compared. -/
  field : String
  /-- How it is compared. -/
  comparison : Comparison
  /-- The value that it is compared with. -/
  value : Value
  deriving DecidableEq, Repr

/-- The settings of a scan. -/
structure Job where
  /-- The keyspace of the table. -/
  keyspace : String
  /-- The table. -/
  table : String
  /-- The columns that are wanted; if there are none, all of them are. -/
  columns : List String := []
  /-- The rows of a page. -/
  pageSize : UInt64 := 1000
  /-- The identifier of the partitioner. -/
  partitioner : String := Partitioner.hashed.name
  /-- The keys that are looked up instead of a scan. -/
  lookup : Option Lookup := none
  /-- What the rows have to meet. -/
  restrictions : List Restriction := []
  /-- Expressions for the column that a custom index covers. -/
  indexExpressions : Dictionary := ∅
  /-- Addresses of the machine that the scan runs on. -/
  localAddresses : List String := []
  deriving DecidableEq, Repr

namespace Job

/-- A column is wanted. -/
def isWanted (job : Job) (column : String) : Bool :=
  job.columns.isEmpty || job.columns.contains column

/-- The job with the wanted columns trimmed and blank ones left out. -/
def normalised (job : Job) : Job :=
  { job with columns := (job.columns.map Text.trim).filter (!·.isEmpty) }

/-- The wanted columns are trimmed once and for all. -/
theorem map_trim_normalised (job : Job) :
    job.normalised.columns.map Text.trim = job.normalised.columns := by
  refine (List.map_congr_left fun column hcolumn => ?_).trans (List.map_id _)
  obtain ⟨wanted, -, rfl⟩ := List.mem_map.1 (List.mem_filter.1 hcolumn).1
  exact Text.trim_trim wanted

/-- A field of a lookup has no name. -/
def hasBlankField (lookup : Lookup) : Bool :=
  Text.isAllBlank lookup.equalsField || Text.isAllBlank lookup.inField

/-- What every job has to meet: a table, pages that hold rows, and a name for each field of a
lookup. -/
def check (job : Job) : Except ConfigurationFault Unit :=
  if Text.isAllBlank job.table then .error .emptyTable
  else if job.pageSize = 0 then .error .emptyPage
  else if job.lookup.any hasBlankField then .error .blankLookupField
  else .ok ()

/-- The page size that a text asks for: a positive number, whatever blanks surround it. -/
def pageSizeOf? (text : String) : Option UInt64 :=
  match Text.readNatural (Nat.pow 2 64 - 1) (Text.trimChars text.toList) with
  | .ok n => if n = 0 then none else some (UInt64.ofNat n)
  | .error _ => none

/-- The job with the page size that a text asks for, if it asks for one. -/
def withPageSizeText (job : Job) (text : Option String) : Job :=
  match text.bind pageSizeOf? with
  | some pageSize => { job with pageSize }
  | none => job

end Job

/-- How often a statement is tried. -/
structure RetryPolicy where
  /-- The number of attempts, the first included; there is always one. -/
  maxAttempts : Nat := 3
  /-- The milliseconds between two attempts. -/
  delay : Nat := 100
  deriving DecidableEq, Repr

end RingScan
