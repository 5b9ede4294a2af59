import RingScan.Cell.Codec

/-!
# Partition keys

A partition key of one column is the cell of that column.  A key of several columns is a sequence of
frames, one for each cell: the length of the cell in two bytes, the cell, and a zero byte.

## Main definitions

* `Key.frame`, `Key.frames`: cells in frames.
* `KeyShape`: the types of the columns of a key.
* `KeyShape.join`: the key of cells.
* `KeyShape.encode`: the key of values.
-/

namespace RingScan

namespace Key

/-- The longest cell that a frame holds. -/
def longest : Nat := 65535

/-- A cell in its frame. -/
def frame (cell : Bytes) : Except EncodingFault Bytes :=
  if cell.length ≤ longest then .ok (Cell.bigEndian 2 cell.length ++ (cell ++ [0]))
  else .error (.componentTooLong cell.length)

/-- Cells in their frames, one after the other. -/
def frames : List Bytes → Except EncodingFault Bytes
  | [] => .ok []
  | cell :: cells => do
    let first ← frame cell
    let rest ← frames cells
    .ok (first ++ rest)

end Key

/-- The types of the columns of a partition key, in key order.  There is at least one column, and a
key is composite exactly if there are several.  Composite keys of fewer than two columns, whose
cells would stand in frames all the same, are left out: neither a list of types
(`KeyShape.ofTypes`) nor the key columns of a table make one. -/
structure KeyShape where
  /-- The type of the first column. -/
  first : ColumnType
  /-- The types of the other columns. -/
  others : List ColumnType
  deriving DecidableEq, Repr

namespace KeyShape

/-- The shape of a key of columns of the given types, of which there must be one. -/
def ofTypes : List ColumnType → Except ConfigurationFault KeyShape
  | [] => .error .noKeyTypes
  | first :: others => .ok ⟨first, others⟩

/-- The types of the columns. -/
def types (shape : KeyShape) : List ColumnType :=
  shape.first :: shape.others

/-- The number of columns. -/
def count (shape : KeyShape) : Nat :=
  shape.types.length

/-- There are several columns. -/
def isComposite (shape : KeyShape) : Bool :=
  !shape.others.isEmpty

/-- The key of a list of cells, of which there is one for each column. -/
def join (shape : KeyShape) (cells : List Bytes) : Except EncodingFault Bytes :=
  if cells.length ≠ shape.count then .error (.componentCount shape.count cells.length)
  else if shape.isComposite then Key.frames cells
  else .ok cells.flatten

/-- The cells of values in columns of the given types. -/
def cells : List ColumnType → List Value → Except EncodingFault (List Bytes)
  | type :: types, value :: values => do
    let cell ← type.encode value
    let rest ← cells types values
    .ok (cell :: rest)
  | _, _ => .ok []

/-- The key of a list of values, of which there is one for each column. -/
def encode (shape : KeyShape) (values : List Value) : Except EncodingFault Bytes :=
  if values.length ≠ shape.count then .error (.componentCount shape.count values.length)
  else do
    shape.join (← cells shape.types values)

end KeyShape

end RingScan
