import RingScan.Proofs.Reader.Memory
import RingScan.Proofs.Ring.Tiling

/-!
# Coverage of the ring

The splits around the ring are read one after the other, each by a reader of its own.  When no
execution meets a fault and every split has an endpoint that is not down, all readers together hand
out each row of the table exactly once, and each of them only rows whose token lies in its split.

## Main definitions

* `Reader.readAll`: opens a reader for each split and drains it.

## Main statements

* `Reader.read_split`: what the reader of one split hands out.
* `Reader.readAll_tiling`: what the readers of all splits hand out.
-/

namespace RingScan

namespace Reader

/-- Opens a reader for each split and drains it, one after the other. -/
def readAll {ω ι : Type} (services : Services ω ι) (limit count : ℕ) (job : Job) :
    List Split → Shared ω ι →
      Option (List (Except Failure (List (Except Failure Record))) × Shared ω ι)
  | [], shared => some ([], shared)
  | split :: splits, shared =>
    match Reader.start services limit job split shared with
    | none => none
    | some (.error failure, shared) =>
      (readAll services limit count job splits shared).map fun (rest, shared) =>
        (.error failure :: rest, shared)
    | some (.ok reader, shared) =>
      match reader.drain services limit count shared with
      | none => none
      | some (items, _, shared) =>
        (readAll services limit count job splits shared).map fun (rest, shared) =>
          (.ok items :: rest, shared)

/-! ### One split -/

/-- The statement that a job without a lookup executes for a split. -/
def rangeStatement (filters : Query.Filters) (job : Job) (keys : KeyLayout) (table : Table)
    (split : Split) : Statement :=
  ⟨String.ofList (Template.ofJob filters job keys table).rangeText, split.bounds, job.pageSize⟩

variable {job : Job} {partitioner : Partitioner} {table : Table} {keys : KeyLayout}
  {rows : List Memory.Stored} {down : List (String × Causes)} {limit count : ℕ}

/-- The reader of one split hands out the rows of the split. -/
theorem read_split (filters : Query.Filters) (retry : RetryPolicy) {split : Split}
    {shared : Shared Memory.World ℕ}
    (hsettle : settle job = .ok partitioner) (hlookup : job.lookup = none)
    (hkeys : table.keys = .ok keys)
    (hoffers : shared.world.Offers (.table keys.shape rows) table down)
    (hup : ∃ endpoint ∈ split.replicas, down.lookup endpoint = none)
    (hlimit : rows.length < limit) (hcount : rows.length < count) :
    ∃ reader opened rest drained,
      Reader.start ⟨Memory.cluster, filters, retry⟩ limit job split shared =
        some (.ok reader, opened) ∧
      reader.drain ⟨Memory.cluster, filters, retry⟩ limit count opened =
        some ((rows.filter fun row => split.contains row.token).map fun row =>
          .ok ((RowLayout.ofTable keys table job.normalised.isWanted).record row.cells),
          rest, drained) ∧
      drained.world.Offers (.table keys.shape rows) table down := by
  have hstatement : (Template.ofJob filters job.normalised keys table).statement? job.lookup
      keys.shape partitioner split =
        .ok (some (rangeStatement filters job.normalised keys table split)) := by
    rw [hlookup]
    rfl
  have hlength : ((rows.filter fun row => split.contains row.token).map (·.cells)).length ≤
      rows.length := by
    rw [List.length_map]
    exact List.length_filter_le _ rows
  obtain ⟨reader, opened, rest, drained, hstart, hdrain, hleft⟩ :=
    read_chosen hsettle hkeys hstatement (Memory.Store.chosen_bounds keys.shape rows split) hoffers
      hup (show _ < limit by omega) (show _ < count by omega)
  refine ⟨reader, opened, rest, drained, hstart, ?_, hleft⟩
  rw [hdrain, List.map_map]
  rfl

/-! ### All splits -/

/-- The readers of several splits hand out the rows of each split. -/
theorem readAll_splits (filters : Query.Filters) (retry : RetryPolicy) {splits : List Split}
    {shared : Shared Memory.World ℕ} (hsettle : settle job = .ok partitioner)
    (hlookup : job.lookup = none) (hkeys : table.keys = .ok keys)
    (hoffers : shared.world.Offers (.table keys.shape rows) table down)
    (hup : ∀ split ∈ splits, ∃ endpoint ∈ split.replicas, down.lookup endpoint = none)
    (hlimit : rows.length < limit) (hcount : rows.length < count) :
    ∃ shared', readAll ⟨Memory.cluster, filters, retry⟩ limit count job splits shared =
      some (splits.map fun split => .ok ((rows.filter fun row => split.contains row.token).map
        fun row => .ok ((RowLayout.ofTable keys table job.normalised.isWanted).record row.cells)),
        shared') := by
  induction splits generalizing shared with
  | nil => exact ⟨shared, rfl⟩
  | cons split splits ih =>
    obtain ⟨reader, opened, rest, drained, hstart, hdrain, hleft⟩ :=
      read_split filters retry hsettle hlookup hkeys hoffers (hup split List.mem_cons_self) hlimit
        hcount
    obtain ⟨shared', hrest⟩ := ih hleft fun split hmem => hup split (List.mem_cons_of_mem _ hmem)
    refine ⟨shared', ?_⟩
    simp only [readAll, hstart, hdrain, hrest, Option.map_some, List.map_cons]

/-- **Every row is read exactly once.** A table in memory is read through the splits around the
ring, none of which lacks an endpoint that is not down, by a job that looks no keys up.  All readers
are opened and report no failure, their records are those of all rows, each as often as the row is
in the table, and every record stands in the split of the reader that hands it out. -/
theorem readAll_tiling (filters : Query.Filters) (retry : RetryPolicy) {rows : List Cells}
    {boundaries : List Token} {splits : List Split} {shared : Shared Memory.World ℕ}
    (hkeys : table.keys = .ok keys) (hrows : ∀ row ∈ rows, keys.Covers row)
    (hcheck : job.check = .ok ())
    (hpartitioner : Partitioner.ofIdentifier job.partitioner = .ok partitioner)
    (hlookup : job.lookup = none)
    (hstore : Memory.Store.ofRows keys partitioner rows = .ok shared.world.node.store)
    (hfaults : shared.world.node.faults = []) (htable : shared.world.table = .ok table)
    (hne : boundaries ≠ []) (hsorted : boundaries.Pairwise (· < ·))
    (htiles : Split.Tiles boundaries splits)
    (hup : ∀ split ∈ splits, ∃ endpoint ∈ split.replicas,
      shared.world.network.down.lookup endpoint = none)
    (hlimit : rows.length < limit) (hcount : rows.length < count) :
    ∃ records shared', readAll ⟨Memory.cluster, filters, retry⟩ limit count job splits shared =
        some (records.map fun items => .ok (items.map .ok), shared') ∧
      records.flatten.Perm
        (rows.map (RowLayout.ofTable keys table job.normalised.isWanted).record) ∧
      List.Forall₂ (fun split items => ∀ record ∈ items, ∃ token,
        keys.tokenOf partitioner record.keys = .ok token ∧ split.contains token = true)
        splits records := by
  obtain ⟨stored, hofRows, hcells, htokens⟩ := Memory.Store.exists_ofRows hrows partitioner
  have hsettle : settle job = .ok partitioner := by
    simp only [settle, hcheck, bind, Except.bind, hpartitioner]
  have hoffers : shared.world.Offers (.table keys.shape stored) table shared.world.network.down :=
    ⟨Except.ok.inj (hstore.symm.trans hofRows), fun n => by rw [hfaults]; rfl, htable, rfl⟩
  have hlength : stored.length = rows.length := by
    rw [← hcells.length_eq, List.length_map]
  obtain ⟨shared', hread⟩ := readAll_splits filters retry hsettle hlookup hkeys hoffers hup
    (hlength ▸ hlimit) (hlength ▸ hcount)
  let layout := RowLayout.ofTable keys table job.normalised.isWanted
  let inside (split : Split) := stored.filter fun row => split.contains row.token
  refine ⟨splits.map fun split => (inside split).map fun row => layout.record row.cells, shared',
    ?_, ?_, ?_⟩
  · rw [hread, List.map_map]
    refine congrArg (fun items => some (items, shared')) (List.map_congr_left fun split _ => ?_)
    rw [Function.comp_apply, List.map_map]
    rfl
  · have hperm := (htiles.flatMap_filter_perm hne hsorted (·.token) stored).map fun row =>
      layout.record row.cells
    rw [List.map_flatMap, List.flatMap_def] at hperm
    have hrecords := hcells.map layout.record
    rw [List.map_map] at hrecords
    exact hperm.trans hrecords
  · rw [List.forall₂_map_right_iff, List.forall₂_same]
    intro split _ record hrecord
    obtain ⟨row, hrow, rfl⟩ := List.mem_map.1 hrecord
    obtain ⟨hmem, hin⟩ := List.mem_filter.1 hrow
    refine ⟨row.token, ?_, hin⟩
    rw [RowLayout.tokenOf_record]
    exact htokens row hmem

/-- Two rows, one of which stands on a boundary, and a split that wraps around the ring. -/
theorem readAll_tiling_two_rows :
    let column : Column := { name := "id", type := .blob }
    let row (b : UInt8) : Cells := .ofList [("id", some [b])]
    ∃ (store : Memory.Store) (records : List (List Record)) (shared' : Shared Memory.World ℕ),
      Memory.Store.ofRows ⟨column, [], []⟩ .byteOrdered [row 7, row 4] = .ok store ∧
      readAll ⟨Memory.cluster, Query.standardFilters, {}⟩ 3 3
          { keyspace := "", table := "t", pageSize := 1, partitioner := "ByteOrderedPartitioner" }
          [⟨.bytes [1], .bytes [4], ["a"]⟩, ⟨.bytes [4], .bytes [1], ["b", "a"]⟩]
          ⟨⟨⟨[("b", ⟨"down", []⟩)], [], 0⟩, { store }, .ok ⟨[column], [], [column]⟩⟩, ∅, {}⟩ =
        some (records.map fun items => .ok (items.map .ok), shared') ∧
      records.flatten.Perm [⟨row 7, ∅⟩, ⟨row 4, ∅⟩] := by
  intro column row
  let keys : KeyLayout := ⟨column, [], []⟩
  let table : Table := ⟨[column], [], [column]⟩
  let job : Job :=
    { keyspace := "", table := "t", pageSize := 1, partitioner := "ByteOrderedPartitioner" }
  let splits : List Split :=
    [⟨.bytes [1], .bytes [4], ["a"]⟩, ⟨.bytes [4], .bytes [1], ["b", "a"]⟩]
  let network : Memory.Network := ⟨[("b", ⟨"down", []⟩)], [], 0⟩
  have hrows : ∀ cells ∈ [row 7, row 4], keys.Covers cells := by
    intro cells hcells column' hcolumn
    obtain rfl := List.mem_singleton.1 hcolumn
    rcases List.mem_pair.1 hcells with rfl | rfl
    · exact ⟨[7], rfl, fun h => absurd h Bool.false_ne_true⟩
    · exact ⟨[4], rfl, fun h => absurd h Bool.false_ne_true⟩
  obtain ⟨stored, hstore, -⟩ := Memory.Store.exists_ofRows hrows .byteOrdered
  let shared : Shared Memory.World ℕ :=
    ⟨⟨network, { store := .table keys.shape stored }, .ok table⟩, ∅, {}⟩
  have hnode : Memory.Store.ofRows keys .byteOrdered [row 7, row 4] =
      .ok shared.world.node.store := hstore
  have hkeys : table.keys = .ok keys := rfl
  have hcheck : job.check = .ok () := by decide
  have hpartitioner : Partitioner.ofIdentifier job.partitioner = .ok .byteOrdered := by decide
  have htiles : Split.Tiles [.bytes [1], .bytes [4]] splits := rfl
  have hsorted : [Token.bytes [1], .bytes [4]].Pairwise (· < ·) := by decide
  have hup : ∀ split ∈ splits, ∃ endpoint ∈ split.replicas,
      network.down.lookup endpoint = none := by decide
  have hlength : [row 7, row 4].length < 3 := Nat.lt_succ_self 2
  obtain ⟨records, shared', hread, hperm, -⟩ :=
    readAll_tiling Query.standardFilters {} hkeys hrows hcheck hpartitioner rfl hnode rfl rfl
      (List.cons_ne_nil _ _) hsorted htiles hup hlength hlength
  exact ⟨_, records, shared', hstore, hread, hperm⟩

end Reader

end RingScan
