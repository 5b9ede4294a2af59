import RingScan.Failure
import RingScan.Key.Shape
import RingScan.Table.Basic

/-!
# Key columns

A row is found by the columns of its partition key, of which a table has at least one, and by its
clustering columns.

## Main definitions

* `KeyLayout`: the key columns of a table.
* `Table.keys`: the key columns of a table that has a partition key.
* `KeyLayout.shape`: the types of the columns of the partition key.
-/

namespace RingScan

/-- The key columns of a table. -/
structure KeyLayout where
  /-- The first column of the partition key. -/
  first : Column
  /-- The other columns of the partition key. -/
  others : List Column
  /-- The clustering columns. -/
  clustering : List Column
  deriving DecidableEq, Repr

namespace KeyLayout

/-- The columns of the partition key. -/
def partition (keys : KeyLayout) : List Column :=
  keys.first :: keys.others

/-- The columns of the partition key and then the clustering columns. -/
def all (keys : KeyLayout) : List Column :=
  keys.partition ++ keys.clustering

/-- The names of all key columns. -/
def names (keys : KeyLayout) : List String :=
  keys.all.map (·.name)

/-- The types of the columns of the partition key. -/
def shape (keys : KeyLayout) : KeyShape :=
  ⟨keys.first.type, keys.others.map (·.type)⟩

/-- A name is that of a key column. -/
def isKey (keys : KeyLayout) (name : String) : Bool :=
  keys.names.contains name

end KeyLayout

/-- The key columns of a table, which has none without a partition key. -/
def Table.keys (table : Table) : Except ConfigurationFault KeyLayout :=
  match table.partitionKey with
  | [] => .error .noPartitionKey
  | first :: others => .ok ⟨first, others, table.clustering⟩

end RingScan
