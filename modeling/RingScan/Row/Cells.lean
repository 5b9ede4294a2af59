import RingScan.Text.Utf8

/-!
# Cells

The cells of a row by the names of their columns, in the order in which the names were first
inserted.  A cell may be null, which is not the same as a name that has no cell.

## Main definitions

* `Cells`: named cells.
* `Cells.insert`: puts a cell under a name; a cell that is there already is replaced in its place.
* `Cells.get?`, `Cells.value?`: the cell of a name.
* `Cells.byteCount`: the bytes of all cells.

## Main statements

* `Cells.names_put`: a name is added at the end unless it is there already.
-/

namespace RingScan

namespace Cells

/-- An association of names with cells in which the cell of a name is replaced, or added at the
end. -/
def put (name : String) (cell : Option Bytes) :
    List (String × Option Bytes) → List (String × Option Bytes)
  | [] => [(name, cell)]
  | entry :: rest =>
    if entry.1 = name then (name, cell) :: rest else entry :: put name cell rest

theorem names_put (name : String) (cell : Option Bytes) (entries : List (String × Option Bytes)) :
    (put name cell entries).map (·.1) =
      if name ∈ entries.map (·.1) then entries.map (·.1) else entries.map (·.1) ++ [name] := by
  induction entries with
  | nil => simp [put]
  | cons entry rest ih =>
    by_cases h : entry.1 = name
    · simp [put, h]
    · have h' : ¬name = entry.1 := fun e => h e.symm
      simp only [put, h, if_false, List.map_cons, ih, List.mem_cons, h', false_or]
      split <;> simp

theorem nodup_put {name : String} {cell : Option Bytes} {entries : List (String × Option Bytes)}
    (h : (entries.map (·.1)).Nodup) : ((put name cell entries).map (·.1)).Nodup := by
  rw [names_put]
  split
  · exact h
  · rename_i hname
    rw [List.nodup_append]
    refine ⟨h, by simp, ?_⟩
    intro a ha b hb
    rw [List.mem_singleton] at hb
    exact fun e => hname (hb ▸ e ▸ ha)

end Cells

/-- Named cells in the order of insertion. -/
structure Cells where
  /-- The names and their cells. -/
  entries : List (String × Option Bytes) := []
  /-- No name occurs twice. -/
  nodup : (entries.map (·.1)).Nodup := by simp
  deriving DecidableEq, Repr

namespace Cells

instance : EmptyCollection Cells := ⟨{}⟩

/-- Puts a cell under a name. -/
def insert (cells : Cells) (name : String) (cell : Option Bytes) : Cells :=
  ⟨put name cell cells.entries, nodup_put cells.nodup⟩

/-- The cells of a list, of which a later one replaces an earlier one of the same name. -/
def ofList (entries : List (String × Option Bytes)) : Cells :=
  entries.foldl (fun cells entry => cells.insert entry.1 entry.2) ∅

/-- The names in the order of insertion. -/
def names (cells : Cells) : List String :=
  cells.entries.map (·.1)

/-- A name has a cell, be it null. -/
def contains (cells : Cells) (name : String) : Bool :=
  cells.names.contains name

/-- The cell of a name. -/
def get? (cells : Cells) (name : String) : Option (Option Bytes) :=
  (cells.entries.find? (·.1 = name)).map (·.2)

/-- The bytes of the cell of a name; neither a null cell nor a missing one has any. -/
def value? (cells : Cells) (name : String) : Option Bytes :=
  (cells.get? name).join

/-- The number of cells. -/
def size (cells : Cells) : Nat :=
  cells.entries.length

/-- There is no cell. -/
def isEmpty (cells : Cells) : Bool :=
  cells.entries.isEmpty

/-- The bytes of all cells. -/
def byteCount (cells : Cells) : Nat :=
  cells.entries.foldr (fun entry n => (entry.2.map List.length).getD 0 + n) 0

end Cells

end RingScan
