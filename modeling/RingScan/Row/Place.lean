import RingScan.Ring.Partitioner
import RingScan.Ring.Split
import RingScan.Row.Cells
import RingScan.Table.Keys

/-!
# Places of rows

The place of a row on the ring is the token of its partition key.

## Main definitions

* `KeyLayout.keyOf`: the partition key of a row.
* `KeyLayout.tokenOf`: the token of a row.
* `KeyLayout.reachesEnd`: whether a row stands at the end of a split.
-/

namespace RingScan.KeyLayout

/-- The cells of columns that must all have a value. -/
def keyCells (cells : Cells) : List Column → Except EncodingFault (List Bytes)
  | [] => .ok []
  | column :: columns =>
    match cells.value? column.name with
    | none => .error (.missingKeyColumn column.name)
    | some cell => do
      let rest ← keyCells cells columns
      .ok (cell :: rest)

/-- The partition key of a row. -/
def keyOf (keys : KeyLayout) (cells : Cells) : Except EncodingFault Bytes := do
  keys.shape.join (← keyCells cells keys.partition)

/-- The token of a row. -/
def tokenOf (keys : KeyLayout) (partitioner : Partitioner) (cells : Cells) :
    Except EncodingFault Token := do
  .ok (partitioner.tokenOf (← keys.keyOf cells))

/-- A row stands at the end of a split: its token has the same text as the last one of the split.
A number and bytes may have the same text, so this does not ask for equal tokens. -/
def reachesEnd (keys : KeyLayout) (partitioner : Partitioner) (split : Split) (cells : Cells) :
    Except EncodingFault Bool := do
  .ok (decide ((← keys.tokenOf partitioner cells).text = split.stop.text))

end RingScan.KeyLayout
