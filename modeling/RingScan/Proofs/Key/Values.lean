import RingScan.Proofs.Query.Candidates

/-!
# Keys of values and keys of rows

There are two ways to a partition key.  The candidates of a lookup are values, and these are encoded
column by column; a row has its cells already, and these are found by the names of the columns.
Both ways lead to the same key as soon as the cells of the row are those of the values, so a
candidate is kept for a split if and only if the rows that it asks for lie in the split.

## Main statements

* `KeyLayout.keyOf_agrees`: the two ways, and when each of them fails.
-/

namespace RingScan.KeyLayout

variable {keys : KeyLayout} {row : Cells}

/-- A row has no partition key if and only if one of its cells in the key columns is missing or null
or, where there are several columns, too long for a frame. -/
theorem exists_keyOf_error_iff :
    (∃ fault, keys.keyOf row = .error fault) ↔
      ∃ column ∈ keys.partition, row.get? column.name = none ∨ row.get? column.name = some none ∨
        keys.shape.isComposite = true ∧
          ∃ cell, row.get? column.name = some (some cell) ∧ Key.longest < cell.length := by
  rw [Traversal.exists_error_iff, exists_keyOf_iff, Covers]
  simp only [not_forall, exists_prop]
  refine exists_congr fun column => and_congr_right fun _ => ?_
  rw [Cells.value?]
  rcases row.get? column.name with - | - | cell
  · exact iff_of_true (by rintro ⟨cell, hcell, -⟩; cases hcell) (Or.inl rfl)
  · exact iff_of_true (by rintro ⟨cell, hcell, -⟩; cases hcell) (Or.inr (Or.inl rfl))
  · simp

/-- **Values and cells lead to the same key.**  Values, one for each column of the partition key,
have a key if and only if each of them has a cell in its column which, where there are several
columns, fits its frame.  A row whose cells in these columns are those of the values, in whatever
order its cells were inserted and whatever other cells it has, has the same key and so the token
that is looked at when a lookup narrows its candidates to a split.  A row has no key if and only if
one of these cells is missing or null or, where there are several columns, too long for a frame. -/
theorem keyOf_agrees (keys : KeyLayout) :
    (∀ values : List Value, values.length = keys.partition.length →
      ((∃ key, keys.shape.encode values = .ok key) ↔
        ∀ pair ∈ keys.partition.zip values, ∃ cell, pair.1.type.encode pair.2 = .ok cell ∧
          (keys.shape.isComposite = true → cell.length ≤ Key.longest)) ∧
      ∀ key row, keys.shape.encode values = .ok key →
        (∀ pair ∈ keys.partition.zip values, ∃ cell, pair.1.type.encode pair.2 = .ok cell ∧
          row.get? pair.1.name = some (some cell)) →
        keys.keyOf row = .ok key ∧
        ∀ partitioner, keys.tokenOf partitioner row = .ok (partitioner.tokenOf key) ∧
          ∀ (lookup : Lookup) candidate split kept, values = [lookup.equalsValue, candidate] →
            candidate ∈ lookup.inValues →
            lookup.retained keys.shape partitioner split = .ok kept →
            (candidate ∈ kept ↔ split.contains (partitioner.tokenOf key) = true)) ∧
    ∀ row : Cells, (∃ fault, keys.keyOf row = .error fault) ↔
      ∃ column ∈ keys.partition, row.get? column.name = none ∨ row.get? column.name = some none ∨
        keys.shape.isComposite = true ∧
          ∃ cell, row.get? column.name = some (some cell) ∧ Key.longest < cell.length := by
  refine ⟨fun values hlength => ⟨exists_encode_iff hlength, fun key row hkey hcells => ?_⟩,
    fun row => exists_keyOf_error_iff⟩
  have hrow : keys.keyOf row = .ok key := by
    rw [keyOf_eq_encode hlength fun pair hmem => ?_, hkey]
    obtain ⟨cell, hencode, hget⟩ := hcells pair hmem
    exact ⟨cell, hencode, by rw [Cells.value?, hget, Option.join_some]⟩
  refine ⟨hrow, fun partitioner => ⟨tokenOf_of_keyOf hrow partitioner, ?_⟩⟩
  rintro lookup candidate split kept rfl hcandidate hkept
  obtain ⟨-, -, rfl⟩ := Lookup.retained_eq_ok_iff.1 hkept
  have hkeyOf : lookup.keyOf keys.shape candidate = .ok key := hkey
  rw [List.mem_filter, and_iff_right hcandidate, Lookup.isInside_of_keyOf hkeyOf]

/-- Two candidates, of which the first is kept for a split, a row that it asks for, whose cells were
inserted in another order, and a row with a null cell. -/
theorem keyOf_agrees_two_candidates :
    let tenant : Column := { name := "tenant", type := .int }
    let note : Column := { name := "note", type := .text }
    let keys : KeyLayout := ⟨tenant, [note], []⟩
    let row : Cells :=
      .ofList [("extra", none), ("note", some [97, 98]), ("tenant", some [0, 0, 0, 1])]
    let key : Bytes := [0, 4, 0, 0, 0, 1, 0, 0, 2, 97, 98, 0]
    let lookup : Lookup := ⟨"tenant", .int 1, "note", [.text "ab", .text "c"]⟩
    let split : Split := ⟨.bytes [0, 4, 0, 0, 0, 1, 0, 0, 2, 97], .bytes [0, 4, 1], []⟩
    keys.shape.encode [.int 1, .text "ab"] = .ok key ∧ keys.keyOf row = .ok key ∧
      lookup.retained keys.shape .byteOrdered split = .ok [.text "ab"] ∧
      split.contains (.bytes key) = true ∧
      (∃ fault, keys.keyOf (row.insert "note" none) = .error fault) := by
  intro tenant note keys row key lookup split
  have hencode : keys.shape.encode [.int 1, .text "ab"] = .ok key := by decide
  have hcells : ∀ pair ∈ keys.partition.zip [.int 1, .text "ab"], ∃ cell,
      pair.1.type.encode pair.2 = .ok cell ∧ row.get? pair.1.name = some (some cell) := by
    intro pair hmem
    rcases List.mem_pair.1 hmem with rfl | rfl
    · exact ⟨[0, 0, 0, 1], by decide, by decide⟩
    · exact ⟨[97, 98], by decide, by decide⟩
  have hkept : lookup.retained keys.shape .byteOrdered split = .ok [.text "ab"] := by decide
  obtain ⟨hagree, hfails⟩ := keyOf_agrees keys
  obtain ⟨hrow, htoken⟩ := (hagree [.int 1, .text "ab"] rfl).2 key row hencode hcells
  obtain ⟨-, hlookup⟩ := htoken .byteOrdered
  have hcontains := (hlookup lookup (.text "ab") split _ rfl List.mem_cons_self hkept).1
    (List.mem_singleton_self _)
  exact ⟨hencode, hrow, hkept, hcontains, (hfails (row.insert "note" none)).2
    ⟨note, List.mem_cons_of_mem _ List.mem_cons_self, Or.inr (Or.inl (by decide))⟩⟩

end RingScan.KeyLayout
