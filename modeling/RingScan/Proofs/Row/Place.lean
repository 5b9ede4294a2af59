import RingScan.Proofs.Key.Components
import RingScan.Proofs.Row.Cells
import RingScan.Row.Place
import RingScan.Row.Record

/-!
# Rows and their records on the ring

The place of a row on the ring depends on the cells of its partition key only, and a record keeps
these.  So a record stands where its row stands, and a row stands somewhere as soon as all cells of
its partition key are there and none of them is too long for its frame.  A row whose cells are those
of some values stands where the key of the values stands.

## Main definitions

* `KeyLayout.Covers`: the cells of the partition key are there and fit their frames.
* `KeyLayout.keyCell`: the cell of a row in a column of the partition key.

## Main statements

* `KeyLayout.exists_keyOf_iff`: the rows that have a partition key.
* `KeyLayout.exists_encode_iff`, `KeyLayout.keyOf_eq_encode`: the values that have one, and the rows
  with the same.
* `RowLayout.keyOf_record`, `RowLayout.tokenOf_record`: a record has the partition key and the token
  of its row.
-/

namespace RingScan

/-! ### Cells of a selection -/

/-- A selection has the cell of the row under each of its names, a null one where the row has
none. -/
theorem RowLayout.get?_select {names : List String} {name : String} (h : name ∈ names)
    (row : Cells) : (select names row).get? name = some (row.value? name) := by
  rw [select, Cells.get?_ofList, Cells.lastCell?, ← List.map_reverse]
  exact List.lookup_graph row.value? (List.mem_reverse.2 h)

theorem RowLayout.value?_select {names : List String} {name : String} (h : name ∈ names)
    (row : Cells) : (select names row).value? name = row.value? name := by
  rw [Cells.value?, get?_select h]
  rfl

/-! ### Places -/

namespace KeyLayout

variable {keys : KeyLayout} {row : Cells}

/-- All cells of the partition key are there, and if there are several columns each cell fits its
frame. -/
def Covers (keys : KeyLayout) (row : Cells) : Prop :=
  ∀ column ∈ keys.partition, ∃ cell, row.value? column.name = some cell ∧
    (keys.shape.isComposite = true → cell.length ≤ Key.longest)

/-- The cell of a row in a column, where it must have a value. -/
def keyCell (row : Cells) (column : Column) : Except EncodingFault Bytes :=
  match row.value? column.name with
  | none => .error (.missingKeyColumn column.name)
  | some cell => .ok cell

theorem keyCell_eq_ok_iff {column : Column} {cell : Bytes} :
    keyCell row column = .ok cell ↔ row.value? column.name = some cell := by
  rw [keyCell]
  cases row.value? column.name with
  | none => exact iff_of_false nofun nofun
  | some found => rw [Except.ok.injEq, Option.some.injEq]

theorem keyCells_eq_mapM (row : Cells) (columns : List Column) :
    keyCells row columns = columns.mapM (keyCell row) := by
  induction columns with
  | nil => rfl
  | cons column columns ih =>
    rw [keyCells, List.mapM_cons, keyCell, ih]
    cases row.value? column.name <;> rfl

theorem length_partition (keys : KeyLayout) : keys.partition.length = keys.shape.count := by
  rw [partition, List.length_cons, KeyShape.count, KeyShape.types, List.length_cons, shape,
    List.length_map]

/-- The partition key of a row is that of its cells in the columns of the key. -/
theorem keyOf_eq_joinAll (keys : KeyLayout) (row : Cells) :
    keys.keyOf row = keys.shape.joinAll (keyCell row) keys.partition := by
  rw [keyOf, keyCells_eq_mapM]
  rfl

/-- The rows that have a partition key are those that the key columns cover. -/
theorem exists_keyOf_iff : (∃ key, keys.keyOf row = .ok key) ↔ keys.Covers row := by
  simp only [keyOf_eq_joinAll, KeyShape.exists_joinAll_iff keys.length_partition, keyCell_eq_ok_iff,
    Covers]

/-- A row has a token if it has a key. -/
theorem tokenOf_eq_map (keys : KeyLayout) (partitioner : Partitioner) (row : Cells) :
    keys.tokenOf partitioner row = (keys.keyOf row).map partitioner.tokenOf := by
  rw [tokenOf]
  cases keys.keyOf row <;> rfl

theorem tokenOf_of_keyOf {key : Bytes} (h : keys.keyOf row = .ok key) (partitioner : Partitioner) :
    keys.tokenOf partitioner row = .ok (partitioner.tokenOf key) := by
  rw [tokenOf_eq_map, h, Except.map]

/-- A row that the key columns cover has a token. -/
theorem exists_tokenOf (h : keys.Covers row) (partitioner : Partitioner) :
    ∃ key, keys.keyOf row = .ok key ∧
      keys.tokenOf partitioner row = .ok (partitioner.tokenOf key) := by
  obtain ⟨key, hkey⟩ := exists_keyOf_iff.2 h
  exact ⟨key, hkey, tokenOf_of_keyOf hkey partitioner⟩

theorem keyOf_congr {other : Cells}
    (h : ∀ column ∈ keys.partition, row.value? column.name = other.value? column.name) :
    keys.keyOf row = keys.keyOf other := by
  rw [keyOf_eq_joinAll, keyOf_eq_joinAll]
  exact KeyShape.joinAll_congr fun column hmem => by rw [keyCell, keyCell, h column hmem]

/-! ### Values of the key columns -/

section Values

variable {values : List Value}

theorem encode_eq_joinAll (h : values.length = keys.partition.length) :
    keys.shape.encode values =
      keys.shape.joinAll (fun pair => pair.1.type.encode pair.2) (keys.partition.zip values) := by
  have htypes : keys.shape.types = keys.partition.map (·.type) := rfl
  rw [KeyShape.encode_eq_joinAll (h.trans keys.length_partition), htypes, List.zip_map_left,
    KeyShape.joinAll_map]
  rfl

/-- Values have a key if and only if each of them has a cell in its column, which fits its frame if
it needs one. -/
theorem exists_encode_iff (h : values.length = keys.partition.length) :
    (∃ key, keys.shape.encode values = .ok key) ↔
      ∀ pair ∈ keys.partition.zip values, ∃ cell, pair.1.type.encode pair.2 = .ok cell ∧
        (keys.shape.isComposite = true → cell.length ≤ Key.longest) := by
  have hcount : (keys.partition.zip values).length = keys.shape.count := by
    rw [List.length_zip, h, Nat.min_self, length_partition]
  simp only [encode_eq_joinAll h, KeyShape.exists_joinAll_iff hcount]

/-- A row has the key of values if its cells in the key columns are the cells of these values. -/
theorem keyOf_eq_encode (h : values.length = keys.partition.length)
    (hcells : ∀ pair ∈ keys.partition.zip values, ∃ cell,
      pair.1.type.encode pair.2 = .ok cell ∧ row.value? pair.1.name = some cell) :
    keys.keyOf row = keys.shape.encode values := by
  have hpartition : keys.partition = (keys.partition.zip values).map Prod.fst :=
    (List.map_fst_zip h.ge).symm
  rw [keyOf_eq_joinAll, encode_eq_joinAll h, hpartition, KeyShape.joinAll_map, ← hpartition]
  refine KeyShape.joinAll_congr fun pair hmem => ?_
  obtain ⟨cell, hencode, hvalue⟩ := hcells pair hmem
  rw [keyCell_eq_ok_iff.2 hvalue, hencode]

end Values

end KeyLayout

/-- A record has the partition key of its row. -/
theorem RowLayout.keyOf_record (keys : KeyLayout) (table : Table) (isWanted : String → Bool)
    (row : Cells) :
    keys.keyOf ((ofTable keys table isWanted).record row).keys = keys.keyOf row := by
  refine KeyLayout.keyOf_congr fun column hmem => value?_select ?_ row
  exact List.mem_map_of_mem (List.mem_append_left _ hmem)

/-- A record has the token of its row. -/
theorem RowLayout.tokenOf_record (keys : KeyLayout) (table : Table) (isWanted : String → Bool)
    (partitioner : Partitioner) (row : Cells) :
    keys.tokenOf partitioner ((ofTable keys table isWanted).record row).keys =
      keys.tokenOf partitioner row := by
  rw [KeyLayout.tokenOf, KeyLayout.tokenOf, keyOf_record]

end RingScan
