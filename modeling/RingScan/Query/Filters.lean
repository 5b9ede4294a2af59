import RingScan.Job.Basic
import RingScan.Value.Literal

/-!
# Filters

The part of a statement that narrows a scan to the rows that meet the restrictions of a job.

## Main definitions

* `Query.Filters`: what makes the filters of a statement.
* `Query.standardFilters`: one comparison for each restriction, and one for each expression if a
  custom index covers a column.
-/

namespace RingScan.Query

/-- What makes the filters of a statement from index expressions, restrictions and the column that
a custom index covers. -/
abbrev Filters := Dictionary → List Restriction → Option String → List Char

/-- A name in a statement. -/
def name (s : String) : List Char :=
  Text.quoted '"' s.toList

/-- The filter of a restriction. -/
def restriction (r : Restriction) : List Char :=
  " AND ".toList ++ (name r.field ++
    (' ' :: (r.comparison.sign.toList ++ (' ' :: r.value.literal))))

/-- The filter of an expression for an indexed column. -/
def expression (column text : String) : List Char :=
  " AND ".toList ++ (name column ++ (" = ".toList ++ Text.literal text))

/-- The filters of restrictions, and of expressions if there is an indexed column for them. -/
def standardFilters : Filters := fun expressions restrictions indexed =>
  restrictions.flatMap restriction ++
    match indexed with
    | some column => expressions.texts.flatMap (expression column)
    | none => []

end RingScan.Query
