import Mathlib.Algebra.GroupWithZero.Nat
import Mathlib.Data.List.Basic
import Mathlib.Data.List.Induction
import RingScan.Row.Cells

/-!
# Cells by their names

Cells are a dictionary in the order of insertion.  Inserting a cell concerns its own name only, and
a name that is there already keeps its place.  So after any insertions a name stands where it was
inserted first, with the cell that was inserted last, and nothing else of the insertions is left:
insertions that agree in both lead to the same cells.

## Main definitions

* `Cells.lastCell?`: the cell that is inserted last under a name.

## Main statements

* `Cells.get?_insert`, `Cells.names_insert`: what one insertion does.
* `Cells.get?_ofList`, `Cells.names_ofList`: what all insertions do.
* `Cells.ext_iff_get?`: cells are known by their names and by the cell of each name.
* `Cells.dictionary_of_insertions`: what is left of any insertions, and when two of them lead to the
  same cells.
-/

namespace RingScan.Cells

variable {cells : Cells} {entries : List (String × Option Bytes)}

/-! ### One insertion -/

private theorem find?_put (name other : String) (cell : Option Bytes)
    (entries : List (String × Option Bytes)) :
    ((put name cell entries).find? (·.1 = other)).map (·.2) =
      if name = other then some cell else (entries.find? (·.1 = other)).map (·.2) := by
  induction entries with
  | nil =>
    by_cases h : name = other
    · simp only [put, List.find?_cons, h, decide_true, Option.map_some, if_true]
    · simp only [put, List.find?_cons, h, decide_false, List.find?_nil, Option.map_none, if_false]
  | cons entry rest ih =>
    by_cases hentry : entry.1 = name
    · rw [put, if_pos hentry]
      by_cases h : name = other
      · simp only [List.find?_cons, h, decide_true, Option.map_some, if_true]
      · simp only [List.find?_cons, hentry, h, decide_false, if_false]
    · rw [put, if_neg hentry]
      by_cases hother : entry.1 = other
      · have h : ¬ name = other := fun heq => hentry (hother.trans heq.symm)
        simp only [List.find?_cons, hother, decide_true, Option.map_some, if_neg h]
      · simpa only [List.find?_cons, hother, decide_false] using ih

/-- A cell that is put under a name is the one that is found there, and no other name is
concerned. -/
theorem get?_insert (cells : Cells) (name other : String) (cell : Option Bytes) :
    (cells.insert name cell).get? other = if name = other then some cell else cells.get? other :=
  find?_put name other cell cells.entries

theorem names_insert (cells : Cells) (name : String) (cell : Option Bytes) :
    (cells.insert name cell).names =
      if name ∈ cells.names then cells.names else cells.names ++ [name] :=
  names_put name cell cells.entries

theorem ofList_concat (entries : List (String × Option Bytes)) (entry : String × Option Bytes) :
    ofList (entries ++ [entry]) = (ofList entries).insert entry.1 entry.2 :=
  List.foldl_append ..

/-! ### All insertions -/

/-- The cell that is inserted last under a name. -/
def lastCell? (entries : List (String × Option Bytes)) (name : String) : Option (Option Bytes) :=
  entries.reverse.lookup name

theorem lastCell?_concat (entries : List (String × Option Bytes)) (entry : String × Option Bytes)
    (name : String) : lastCell? (entries ++ [entry]) name =
      if entry.1 = name then some entry.2 else lastCell? entries name := by
  rw [lastCell?, List.reverse_append, List.reverse_singleton, List.singleton_append,
    List.lookup_cons]
  by_cases h : entry.1 = name
  · rw [if_pos h, beq_iff_eq.2 h.symm]
  · rw [if_neg h, beq_eq_false_iff_ne.2 (Ne.symm h)]
    rfl

/-- The cells of a list stand where their names first occur. -/
theorem names_ofList (entries : List (String × Option Bytes)) :
    (ofList entries).names = (entries.map (·.1)).eraseDups := by
  induction entries using List.reverseRecOn with
  | nil => rfl
  | append_singleton entries entry ih =>
    rw [ofList_concat, names_insert, ih, List.map_append, List.eraseDups_append, List.map_singleton]
    by_cases hname : entry.1 ∈ entries.map (·.1)
    · have hgone : [entry.1].removeAll (entries.map (·.1)) = [] := by
        simpa [List.removeAll] using hname
      rw [if_pos (List.mem_eraseDups.2 hname), hgone, List.eraseDups_nil, List.append_nil]
    · have hleft : [entry.1].removeAll (entries.map (·.1)) = [entry.1] := by
        simpa [List.removeAll] using hname
      rw [if_neg fun h => hname (List.mem_eraseDups.1 h), hleft]
      rfl

/-- Under each name of a list its last cell is found. -/
theorem get?_ofList (entries : List (String × Option Bytes)) (name : String) :
    (ofList entries).get? name = lastCell? entries name := by
  induction entries using List.reverseRecOn with
  | nil => rfl
  | append_singleton entries entry ih =>
    rw [ofList_concat, get?_insert, lastCell?_concat, ih]

theorem contains_ofList_iff {name : String} :
    (ofList entries).contains name = true ↔ name ∈ entries.map (·.1) := by
  rw [contains, List.contains_iff_mem, names_ofList, List.mem_eraseDups]

/-! ### Cells as a whole -/

private theorem find?_of_mem {entry : String × Option Bytes} (hnames : (entries.map (·.1)).Nodup)
    (h : entry ∈ entries) : entries.find? (·.1 = entry.1) = some entry := by
  induction entries with
  | nil => cases h
  | cons first rest ih =>
    obtain ⟨hfirst, hrest⟩ := List.nodup_cons.1 hnames
    rcases List.mem_cons.1 h with rfl | h
    · exact List.find?_cons_of_pos (decide_eq_true rfl)
    · have hne : ¬ first.1 = entry.1 := fun heq =>
        hfirst (List.mem_map.2 ⟨entry, h, heq.symm⟩)
      rw [List.find?_cons_of_neg (by simpa using hne), ih hrest h]

/-- Each name stands with its cell. -/
theorem entries_eq_map (cells : Cells) :
    cells.entries = cells.names.map fun name => (name, cells.value? name) := by
  rw [names, List.map_map]
  refine (List.map_id cells.entries).symm.trans (List.map_congr_left fun entry hentry => ?_)
  have hfound : cells.value? entry.1 = entry.2 := by
    rw [value?, get?, find?_of_mem cells.nodup hentry]
    rfl
  rw [Function.comp_apply, hfound]
  rfl

/-- Cells are known by their names and by the cell of each name. -/
theorem ext_iff_get? {other : Cells} :
    cells = other ↔ cells.names = other.names ∧ ∀ name, cells.get? name = other.get? name := by
  refine ⟨fun h => h ▸ ⟨rfl, fun _ => rfl⟩, fun ⟨hnames, hget⟩ => ?_⟩
  have hentries : cells.entries = other.entries := by
    rw [entries_eq_map, entries_eq_map, hnames]
    simp only [value?, hget]
  cases cells
  cases other
  cases hentries
  rfl

/-- The bytes of all cells, name by name. -/
theorem byteCount_eq_sum (cells : Cells) :
    cells.byteCount =
      (cells.names.map fun name => ((cells.value? name).map List.length).getD 0).sum := by
  rw [byteCount, entries_eq_map, List.foldr_map, List.sum_eq_foldr, List.foldr_map]

/-- **Cells are a dictionary in the order of insertion.**  After any insertions the names are the
inserted ones in the order in which they first came, the cell of a name is the one that came last,
null or not, and the number of cells and their bytes follow from these.  Two lists of insertions
lead to the same cells if and only if their names first come in the same order and each name has the
same last cell. -/
theorem dictionary_of_insertions (entries : List (String × Option Bytes)) :
    let cells : Cells := entries.foldl (fun cells entry => cells.insert entry.1 entry.2) ∅
    let names := (entries.map (·.1)).eraseDups
    ofList entries = cells ∧ cells.names = names ∧
      (∀ name, cells.get? name = lastCell? entries name) ∧
      (∀ name, cells.contains name = true ↔ name ∈ entries.map (·.1)) ∧
      cells.size = names.length ∧
      cells.byteCount =
        (names.map fun name => ((lastCell? entries name).join.map List.length).getD 0).sum ∧
      ∀ others : List (String × Option Bytes), ofList others = cells ↔
        (others.map (·.1)).eraseDups = names ∧
          ∀ name, lastCell? others name = lastCell? entries name := by
  intro cells names
  have hnames : cells.names = names := names_ofList entries
  have hget : ∀ name, cells.get? name = lastCell? entries name := get?_ofList entries
  refine ⟨rfl, hnames, hget, fun name => contains_ofList_iff, ?_, ?_, fun others => ?_⟩
  · rw [← hnames, Cells.names, List.length_map, size]
  · rw [byteCount_eq_sum, hnames]
    simp only [value?, hget]
  · rw [ext_iff_get?, hnames, names_ofList]
    simp only [hget, get?_ofList]

end RingScan.Cells
