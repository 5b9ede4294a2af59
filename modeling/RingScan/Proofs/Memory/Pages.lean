import RingScan.Proofs.Scan.Paged

/-!
# Stores in memory as pages

A store in memory answers a statement with the pages of a list: those that it was given, or those
into which the chosen rows of a table are cut.  A node with such a store serves pages, be it asked
directly or over a network.

## Main definitions

* `Memory.chunks`: a list of rows cut into pages.
* `Memory.Store.Serves`: a store answers a statement with the pages of a list.
* `Memory.Node.paged`, `Memory.World.paged`: the sessions of a node and of the cluster in memory
  serve the pages of their store.

## Main statements

* `Memory.flatten_chunks`: the pages hold the rows, in order.
* `Memory.Store.serves_fixed`, `Memory.Store.serves_table`: the pages of the two kinds of stores.
-/

namespace RingScan.Memory

/-! ### Rows cut into pages -/

/-- The number of pages that rows fill. -/
def chunkCount (size : ℕ) (rows : List Cells) : ℕ :=
  (rows.length + (size - 1)) / size

/-- Rows cut into pages of the same size, of which the last one may hold less. -/
def chunks (size : ℕ) (rows : List Cells) : List (List Cells) :=
  (List.range (chunkCount size rows)).map fun i => (rows.drop (i * size)).take size

@[simp] theorem length_chunks (size : ℕ) (rows : List Cells) :
    (chunks size rows).length = chunkCount size rows := by
  rw [chunks, List.length_map, List.length_range]

/-- A page is there if and only if a row is. -/
theorem lt_chunkCount {size : ℕ} (hsize : 0 < size) (rows : List Cells) (i : ℕ) :
    i < chunkCount size rows ↔ i * size < rows.length := by
  rw [chunkCount, Nat.lt_div_iff_mul_lt hsize]
  omega

theorem chunkCount_le {size : ℕ} (hsize : 0 < size) (rows : List Cells) :
    chunkCount size rows ≤ rows.length := by
  by_contra h
  have hlast := (lt_chunkCount hsize rows rows.length).1 (Nat.lt_of_not_le h)
  have := Nat.le_mul_of_pos_right rows.length hsize
  omega

private theorem flatten_chunks_take (size : ℕ) (rows : List Cells) (n : ℕ) :
    ((List.range n).map fun i => (rows.drop (i * size)).take size).flatten =
      rows.take (n * size) := by
  induction n with
  | zero => rw [List.range_zero, List.map_nil, List.flatten_nil, Nat.zero_mul, List.take_zero]
  | succ n ih =>
    rw [List.range_succ, List.map_append, List.flatten_append, ih, Nat.succ_mul, List.take_add]
    simp only [List.map_cons, List.map_nil, List.flatten_cons, List.flatten_nil, List.append_nil]

theorem flatten_chunks {size : ℕ} (hsize : 0 < size) (rows : List Cells) :
    (chunks size rows).flatten = rows := by
  have hall : rows.length ≤ chunkCount size rows * size := by
    by_contra h
    exact Nat.lt_irrefl _ ((lt_chunkCount hsize rows _).2 (Nat.lt_of_not_le h))
  rw [chunks, flatten_chunks_take, List.take_of_length_le hall]

theorem getElem?_chunks {size : ℕ} (hsize : 0 < size) (rows : List Cells) (i : ℕ) :
    ((chunks size rows)[i]?).getD [] = (rows.drop (i * size)).take size := by
  by_cases h : i < chunkCount size rows
  · rw [chunks, List.getElem?_map, List.getElem?_range h, Option.map_some, Option.getD_some]
  · have hnone : (chunks size rows)[i]? = none := by
      rw [List.getElem?_eq_none_iff, length_chunks]
      exact Nat.le_of_not_lt h
    rw [lt_chunkCount hsize] at h
    rw [hnone, Option.getD_none, List.drop_eq_nil_of_le (Nat.le_of_not_lt h), List.take_nil]

/-! ### Stores -/

namespace Store

/-- A store answers a statement with the pages of a list; an empty list counts as one page without
rows. -/
def Serves (store : Store) (statement : Statement) (mark : ℕ → Bytes)
    (pages : List (List Cells)) : Prop :=
  ∀ i < max 1 pages.length,
    store.answer statement (Page.start mark i) = .ok (Page.nth mark pages i)

theorem serves_fixed (pages : List (List Cells)) (statement : Statement) :
    (Store.fixed pages).Serves statement writePosition pages := by
  intro i _
  have hread : readPosition (Page.start writePosition i) = i := by
    cases i with
    | zero => rfl
    | succ i => exact readPosition_writePosition (i + 1)
  rw [answer, hread]
  rfl

/-- A table serves the rows that a statement chooses, in pages of the size that it asks for. -/
theorem serves_table {shape : KeyShape} {rows : List Stored} {statement : Statement}
    {cells : List Cells} {size : ℕ} (hsize : size = max 1 statement.pageSize.toNat)
    (hchosen : chosen shape rows statement.values = .ok cells) :
    (Store.table shape rows).Serves statement (fun i => writePosition (i * size))
      (chunks size cells) := by
  intro i _
  have hpos : 0 < size := by omega
  have hread : readPosition (Page.start (fun i => writePosition (i * size)) i) = i * size := by
    cases i with
    | zero => exact (Nat.zero_mul size).symm
    | succ i => exact readPosition_writePosition _
  have hslice : slice cells (i * size) size =
      Page.nth (fun i => writePosition (i * size)) (chunks size cells) i := by
    simp only [slice, Page.nth, Page.resume, getElem?_chunks hpos, length_chunks,
      lt_chunkCount hpos, Nat.succ_mul]
  simp only [answer, hchosen, hread, ← hsize, ← hslice]
  rfl

end Store

/-! ### Nodes -/

namespace Node

variable {store : Store} {statement : Statement} {mark : ℕ → Bytes} {pages : List (List Cells)}

/-- The executions to come meet the faults that are lined up, and none after these. -/
def Faces (node : Node) (faults : Schedule) : Prop :=
  ∀ n, faults.get n = (node.faults[n]?).join

theorem Faces.head {node : Node} {faults : Schedule} (h : node.Faces faults) :
    node.faults.head?.join = faults.get 0 := by
  rw [h 0, List.head?_eq_getElem?]

theorem Faces.tail {node : Node} {faults : Schedule} (h : node.Faces faults)
    (statement : Statement) (from? : Option Bytes) :
    (node.execute statement from?).2.Faces (faults.drop 1) := by
  intro n
  rw [Stream'.get_drop, h (1 + n), Nat.add_comm]
  show _ = (node.faults.tail[n]?).join
  rw [List.getElem?_tail]

theorem executions_execute (statement : Statement) (from? : Option Bytes) (node : Node) :
    (node.execute statement from?).2.executions =
      node.executions ++ [⟨statement, from?, node.clock⟩] :=
  List.reverse_cons

theorem answer_execute {node : Node} {faults : Schedule} (h : node.Faces faults)
    (statement : Statement) (from? : Option Bytes) :
    (node.execute statement from?).1 =
      match faults.get 0 with
      | some fault => .error fault
      | none => node.store.answer statement from? := by
  cases hget : faults.get 0 with
  | none => simp only [execute, h.head, hget]
  | some fault => simp only [execute, h.head, hget]

/-- A node serves the pages of its store. -/
def paged (hserves : store.Serves statement mark pages) :
    Paged Node.session statement pages where
  mark := mark
  Meets node faults := node.store = store ∧ node.Faces faults
  log := executions
  clock := clock
  answer_execute {node faults i} h hi := by
    obtain ⟨rfl, hfaces⟩ := h
    rw [← hserves i hi]
    exact answer_execute hfaces statement _
  meets_execute h _ := ⟨h.1, h.2.tail statement _⟩
  log_execute _ _ := executions_execute statement _ _
  clock_execute _ _ := rfl
  meets_pause _ h := h
  log_pause _ _ := rfl
  clock_pause _ _ := rfl

end Node

/-! ### The cluster -/

/-- The cluster in memory serves the pages of its node.  Reading changes neither the network nor the
description of the table. -/
def World.paged {store : Store} {statement : Statement} {mark : ℕ → Bytes}
    {pages : List (List Cells)} (hserves : store.Serves statement mark pages) (network : Network)
    (table : Except Causes Table) (connection : ℕ) :
    Paged (cluster.session connection) statement pages where
  mark := mark
  Meets world faults := (world.network = network ∧ world.table = table) ∧
    (Node.paged hserves).Meets world.node faults
  log world := world.node.executions
  clock world := world.node.clock
  answer_execute h hi := (Node.paged hserves).answer_execute h.2 hi
  meets_execute h hi := ⟨h.1, (Node.paged hserves).meets_execute h.2 hi⟩
  log_execute h hi := (Node.paged hserves).log_execute h.2 hi
  clock_execute h hi := (Node.paged hserves).clock_execute h.2 hi
  meets_pause delay h := ⟨h.1, (Node.paged hserves).meets_pause delay h.2⟩
  log_pause delay h := (Node.paged hserves).log_pause delay h.2
  clock_pause delay h := (Node.paged hserves).clock_pause delay h.2

end RingScan.Memory
