import RingScan.Proofs.Key.Frames

/-!
# Keys put together from components

A partition key is made of one cell for each of its columns, and it makes no difference where these
cells come from: they may be encoded from values, or they may be looked up in a row.  Either way the
first column without a cell decides which fault there is, and once all cells are there, only a cell
that is too long for its frame stands in the way of a key.

## Main definitions

* `KeyShape.joinAll`: the key of items, each of which is given a cell.

## Main statements

* `KeyShape.exists_joinAll_iff`: which items have a key.
* `KeyShape.encode_eq_joinAll`: the key of values.
-/

namespace RingScan.KeyShape

variable {α : Type} {shape : KeyShape} {cellOf : α → Except EncodingFault Bytes} {items : List α}
  {values : List Value}

/-- The key of items, of which there is one for each column and each of which is given a cell. -/
def joinAll (shape : KeyShape) (cellOf : α → Except EncodingFault Bytes) (items : List α) :
    Except EncodingFault Bytes :=
  items.mapM cellOf >>= shape.join

/-- Items have a key if and only if each of them has a cell, which fits its frame if it needs
one. -/
theorem exists_joinAll_iff (h : items.length = shape.count) :
    (∃ key, shape.joinAll cellOf items = .ok key) ↔
      ∀ item ∈ items, ∃ cell, cellOf item = .ok cell ∧
        (shape.isComposite = true → cell.length ≤ Key.longest) := by
  have hcount {cells : List Bytes} (hcells : items.mapM cellOf = .ok cells) :
      cells.length = shape.count :=
    (Traversal.mapM_eq_ok_iff.1 hcells).length_eq.symm.trans h
  simp only [joinAll, Traversal.bind_eq_ok_iff]
  constructor
  · rintro ⟨key, cells, hcells, hkey⟩ item hitem
    have hfits := (exists_join_iff (hcount hcells)).1 ⟨key, hkey⟩
    obtain ⟨cell, hcell⟩ := Traversal.exists_mapM_eq_ok_iff.1 ⟨cells, hcells⟩ item hitem
    exact ⟨cell, hcell, fun hcomposite =>
      hfits hcomposite cell ((Traversal.mem_iff_of_mapM hcells).2 ⟨item, hitem, hcell⟩)⟩
  · intro hall
    obtain ⟨cells, hcells⟩ := Traversal.exists_mapM_eq_ok_iff.2 fun item hitem =>
      let ⟨cell, hcell, _⟩ := hall item hitem
      ⟨cell, hcell⟩
    have hfits : shape.isComposite = true → ∀ cell ∈ cells, cell.length ≤ Key.longest := by
      intro hcomposite cell hmem
      obtain ⟨item, hitem, hcell⟩ := (Traversal.mem_iff_of_mapM hcells).1 hmem
      obtain ⟨other, hother, hlength⟩ := hall item hitem
      cases hcell.symm.trans hother
      exact hlength hcomposite
    obtain ⟨key, hkey⟩ := (exists_join_iff (hcount hcells)).2 hfits
    exact ⟨key, cells, hcells, hkey⟩

theorem joinAll_congr {cellOf' : α → Except EncodingFault Bytes}
    (h : ∀ item ∈ items, cellOf item = cellOf' item) :
    shape.joinAll cellOf items = shape.joinAll cellOf' items := by
  rw [joinAll, joinAll, Traversal.mapM_congr h]

theorem joinAll_map {β : Type} (g : β → α) (items : List β) :
    shape.joinAll cellOf (items.map g) = shape.joinAll (fun item => cellOf (g item)) items := by
  rw [joinAll, List.mapM_map]
  rfl

/-! ### Keys of values -/

theorem cells_eq_mapM (types : List ColumnType) (values : List Value) :
    cells types values = (types.zip values).mapM fun pair => pair.1.encode pair.2 := by
  induction types generalizing values with
  | nil => rfl
  | cons type types ih =>
    cases values with
    | nil => rfl
    | cons value values =>
      rw [cells, List.zip_cons_cons, List.mapM_cons, ih]
      rfl

/-- The key of values is that of the cells that they have in their columns. -/
theorem encode_eq_joinAll (h : values.length = shape.count) :
    shape.encode values =
      shape.joinAll (fun pair => pair.1.encode pair.2) (shape.types.zip values) := by
  rw [encode, if_neg (not_not_intro h), cells_eq_mapM]
  rfl

end RingScan.KeyShape
