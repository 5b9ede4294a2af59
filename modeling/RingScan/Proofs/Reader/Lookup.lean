import RingScan.Proofs.Query.Candidates
import RingScan.Proofs.Reader.Coverage

/-!
# Lookups and scans

A lookup is a shortcut.  Instead of scanning a split and passing over all rows but those with one of
its keys, it works out on its own which candidates have a key in the split, and asks for these only,
or for nothing at all.  A table in memory with a partition key of two columns is read in both ways
here, and the shortcut hands out what the long way does, the same rows in the same order, whatever
the candidates are and however often one of them is repeated.

## Main definitions

* `Lookup.admits`: the key of a row is that of a candidate.

## Main statements

* `Memory.Store.chosen_lookup`: the rows that a table chooses for the candidates in a split.
* `Reader.drain_lookup`: the records of a lookup are those of a scan with one of its keys.
-/

namespace RingScan

/-! ### Keys of candidates -/

namespace Lookup

variable {lookup : Lookup} {keys : KeyLayout} {cells : Cells}

/-- The key of a row is that of a candidate. -/
def admits (lookup : Lookup) (keys : KeyLayout) (cells : Cells) : Bool :=
  match keys.keyOf cells with
  | .ok key =>
    lookup.inValues.any fun candidate => decide (lookup.keyOf keys.shape candidate = .ok key)
  | .error _ => false

theorem admits_iff {key : Bytes} (h : keys.keyOf cells = .ok key) :
    lookup.admits keys cells = true ↔
      ∃ candidate ∈ lookup.inValues, lookup.keyOf keys.shape candidate = .ok key := by
  simp only [admits, h, List.any_eq_true, decide_eq_true_eq]

/-- A record has the key of its row. -/
theorem admits_record (lookup : Lookup) (keys : KeyLayout) (table : Table)
    (isWanted : String → Bool) (row : Cells) :
    lookup.admits keys ((RowLayout.ofTable keys table isWanted).record row).keys =
      lookup.admits keys row := by
  rw [admits, admits, RowLayout.keyOf_record]

end Lookup

/-- A job that passes with a lookup passes without it. -/
theorem Job.check_of_lookup {job : Job} {lookup : Lookup}
    (h : Job.check { job with lookup := some lookup } = .ok ()) :
    Job.check { job with lookup := none } = .ok () := by
  unfold Job.check at h ⊢
  split at h
  · cases h
  · rename_i htable
    split at h
    · cases h
    · rename_i hpage
      rw [if_neg htable, if_neg hpage]
      rfl

/-- The rows that a table chooses for the candidates in a split are those of the split with the key
of a candidate. -/
theorem Memory.Store.chosen_lookup {lookup : Lookup} {keys : KeyLayout} {partitioner : Partitioner}
    {rows : List Stored} (split : Split)
    (hcandidates : ∀ candidate ∈ lookup.inValues, ∃ key,
      lookup.keyOf keys.shape candidate = .ok key)
    (hrows : ∀ stored ∈ rows, keys.keyOf stored.cells = .ok stored.key ∧
      stored.token = partitioner.tokenOf stored.key) :
    chosen keys.shape rows [lookup.equalsValue,
        .list (lookup.inValues.filter (lookup.isInside keys.shape partitioner split))] =
      .ok (((rows.filter fun stored => split.contains stored.token).filter fun stored =>
        lookup.admits keys stored.cells).map (·.cells)) := by
  let inside := lookup.inValues.filter (lookup.isInside keys.shape partitioner split)
  obtain ⟨found, hfound, hmem⟩ : ∃ found,
      wanted keys.shape lookup.equalsValue inside = .ok found ∧
        ∀ key, key ∈ found ↔ ∃ item ∈ inside, lookup.keyOf keys.shape item = .ok key :=
    exists_wanted fun item hitem => hcandidates item (List.mem_of_mem_filter hitem)
  have hfilter : (rows.filter fun stored => found.contains stored.key) =
      (rows.filter fun stored => split.contains stored.token).filter fun stored =>
        lookup.admits keys stored.cells := by
    rw [List.filter_filter]
    refine List.filter_congr fun stored hstored => Bool.eq_iff_iff.2 ?_
    obtain ⟨hkey, htoken⟩ := hrows stored hstored
    rw [List.contains_iff_mem, hmem, Bool.and_eq_true, Lookup.admits_iff hkey, htoken]
    constructor
    · rintro ⟨item, hitem, hitemKey⟩
      obtain ⟨hcandidate, hinside⟩ := List.mem_filter.1 hitem
      exact ⟨⟨item, hcandidate, hitemKey⟩, Lookup.isInside_of_keyOf hitemKey ▸ hinside⟩
    · rintro ⟨⟨item, hcandidate, hitemKey⟩, hcontains⟩
      exact ⟨item, List.mem_filter.2 ⟨hcandidate,
        (Lookup.isInside_of_keyOf hitemKey).trans hcontains⟩, hitemKey⟩
  rw [← hfilter]
  simp only [chosen, inside, hfound]
  rfl

/-! ### Reading in both ways -/

namespace Reader

variable {job : Job} {partitioner : Partitioner} {table : Table} {keys : KeyLayout}
  {lookup : Lookup} {down : List (String × Causes)} {limit count : ℕ} {split : Split}
  {shared : Shared Memory.World ℕ}

/-- The reader of a lookup hands out the rows of the split with the key of a candidate.  If no
candidate lies in the split, it has nothing to report from the start, and nothing is executed. -/
theorem read_lookup (filters : Query.Filters) (retry : RetryPolicy) {rows : List Memory.Stored}
    (hsettle : settle { job with lookup := some lookup } = .ok partitioner)
    (hkeys : table.keys = .ok keys) (hcomposite : keys.shape.isComposite = true)
    (hcandidates : ∀ candidate ∈ lookup.inValues, ∃ key,
      lookup.keyOf keys.shape candidate = .ok key)
    (hrows : ∀ stored ∈ rows, keys.keyOf stored.cells = .ok stored.key ∧
      stored.token = partitioner.tokenOf stored.key)
    (hoffers : shared.world.Offers (.table keys.shape rows) table down)
    (hup : ∃ endpoint ∈ split.replicas, down.lookup endpoint = none)
    (hlimit : rows.length < limit) (hcount : rows.length < count) :
    ∃ reader opened rest drained,
      Reader.start ⟨Memory.cluster, filters, retry⟩ limit { job with lookup := some lookup } split
        shared = some (.ok reader, opened) ∧
      reader.drain ⟨Memory.cluster, filters, retry⟩ limit count opened =
        some (((rows.filter fun stored => split.contains stored.token).filter fun stored =>
          lookup.admits keys stored.cells).map fun stored =>
            .ok ((RowLayout.ofTable keys table job.normalised.isWanted).record stored.cells),
          rest, drained) ∧
      ((∀ candidate ∈ lookup.inValues,
          lookup.isInside keys.shape partitioner split candidate = false) →
        reader.scan.stage = .exhausted ∧ drained.world.node = shared.world.node) := by
  let inside := lookup.inValues.filter (lookup.isInside keys.shape partitioner split)
  let asking : Job := { job with lookup := some lookup }
  let template := Template.ofJob filters asking.normalised keys table
  have hchosen := Memory.Store.chosen_lookup split hcandidates hrows
  have hstatement : template.statement? (some lookup) keys.shape partitioner split =
      .ok (if inside = [] then none else some (template.lookupStatement lookup inside)) :=
    Template.statement?_eq_ok_iff.2 ⟨hcomposite, hcandidates, rfl⟩
  by_cases hinside : inside = []
  · obtain ⟨connection, after, hfinds, -, hnode⟩ :=
      exists_finds filters retry asking hoffers hup
    rw [if_pos hinside] at hstatement
    have hstart := start_of_nothing (prepare_of_finds hsettle hfinds hkeys hstatement) limit
    have hnone : (rows.filter fun stored => split.contains stored.token).filter
        (fun stored => lookup.admits keys stored.cells) = [] := by
      rw [show lookup.inValues.filter _ = [] from hinside] at hchosen
      have hnothing : Memory.Store.chosen keys.shape rows [lookup.equalsValue, .list []] =
          .ok [] := by
        have hfilter : (rows.filter fun row => ([] : List Bytes).contains row.key) = [] :=
          List.filter_eq_nil_iff.2 fun _ _ => Bool.false_ne_true
        simp only [Memory.Store.chosen, Memory.Store.wanted, List.mapM_nil, pure, Except.pure,
          Except.mapError, bind, Except.bind, hfilter, List.map_nil]
      exact List.map_eq_nil_iff.1 (Except.ok.inj (hchosen.symm.trans hnothing))
    obtain ⟨count, rfl⟩ : ∃ n, count = n + 1 := ⟨count - 1, by omega⟩
    rw [hnone]
    exact ⟨_, _, _, _, hstart, drain_of_not_hasNext rfl count _, fun _ => ⟨rfl, hnode⟩⟩
  · rw [if_neg hinside] at hstatement
    have hlength : (((rows.filter fun stored => split.contains stored.token).filter fun stored =>
        lookup.admits keys stored.cells).map (·.cells)).length ≤ rows.length := by
      rw [List.length_map]
      exact (List.length_filter_le _ _).trans (List.length_filter_le _ rows)
    obtain ⟨reader, opened, rest, drained, hstart, hdrain, -⟩ :=
      read_chosen hsettle hkeys hstatement hchosen hoffers hup (show _ < limit by omega)
        (show _ < count by omega)
    refine ⟨reader, opened, rest, drained, hstart, ?_, fun houtside => absurd ?_ hinside⟩
    · rw [hdrain, List.map_map]
      rfl
    · exact List.filter_eq_nil_iff.2 fun candidate hmem => by
        rw [houtside candidate hmem]
        exact Bool.false_ne_true

/-- **A lookup hands out what a scan of its split hands out, restricted to its keys.**  A table in
memory with a partition key of two columns is read twice, by a job that looks up candidates, all of
which have a key, and by the same job without the lookup.  The records of the scan are those of the
rows whose token lies in the split, in the order of the table, and the records of the lookup are
those of the scan whose key is that of a candidate, in the same order.  If no candidate lies in the
split, the reader of the lookup is exhausted when it is opened and nothing has been executed. -/
theorem drain_lookup (filters : Query.Filters) (retry : RetryPolicy) {first second : Column}
    {rows : List Cells} {store : Memory.Store} {looked : Shared Memory.World ℕ}
    (hkeys : table.keys = .ok keys) (hpartition : keys.partition = [first, second])
    (hcheck : Job.check { job with lookup := some lookup } = .ok ())
    (hpartitioner : Partitioner.ofIdentifier job.partitioner = .ok partitioner)
    (hcandidates : ∀ candidate ∈ lookup.inValues, ∃ key,
      lookup.keyOf keys.shape candidate = .ok key)
    (hstore : Memory.Store.ofRows keys partitioner rows = .ok store)
    (hscan : shared.world.Offers store table down) (hlook : looked.world.Offers store table down)
    (hup : ∃ endpoint ∈ split.replicas, down.lookup endpoint = none)
    (hlimit : rows.length < limit) (hcount : rows.length < count) :
    ∃ (stored : List Memory.Stored) (records : List Record),
      store = .table keys.shape stored ∧ (stored.map (·.cells)).Perm rows ∧
      (∀ row ∈ stored, keys.tokenOf partitioner row.cells = .ok row.token) ∧
      records = (stored.filter fun row => split.contains row.token).map (fun row =>
        (RowLayout.ofTable keys table job.normalised.isWanted).record row.cells) ∧
      (∃ reader opened rest drained,
        Reader.start ⟨Memory.cluster, filters, retry⟩ limit { job with lookup := none } split
          shared = some (.ok reader, opened) ∧
        reader.drain ⟨Memory.cluster, filters, retry⟩ limit count opened =
          some (records.map .ok, rest, drained)) ∧
      ∃ reader opened rest drained,
        Reader.start ⟨Memory.cluster, filters, retry⟩ limit { job with lookup := some lookup } split
          looked = some (.ok reader, opened) ∧
        reader.drain ⟨Memory.cluster, filters, retry⟩ limit count opened =
          some ((records.filter fun record => lookup.admits keys record.keys).map .ok, rest,
            drained) ∧
        ((∀ candidate ∈ lookup.inValues,
            lookup.isInside keys.shape partitioner split candidate = false) →
          reader.scan.stage = .exhausted ∧ drained.world.node = looked.world.node) := by
  obtain ⟨stored, rfl, hcells, hall⟩ := Memory.Store.of_ofRows hstore
  have hlength : stored.length = rows.length := by
    rw [← hcells.length_eq, List.length_map]
  have htokens : ∀ row ∈ stored, keys.tokenOf partitioner row.cells = .ok row.token :=
    fun row hrow => Memory.Store.tokenOf_cells (hall row hrow)
  have hlooking : settle { job with lookup := some lookup } = .ok partitioner := by
    simp only [settle, hcheck, bind, Except.bind, hpartitioner]
  have hscanning : settle { job with lookup := none } = .ok partitioner := by
    simp only [settle, Job.check_of_lookup hcheck, bind, Except.bind, hpartitioner]
  have hcomposite : keys.shape.isComposite = true := by
    obtain ⟨column, others, clustering⟩ := keys
    obtain ⟨rfl, rfl⟩ := List.cons.inj hpartition
    rfl
  obtain ⟨reader, opened, rest, drained, hstart, hdrain, -⟩ :=
    read_split filters retry hscanning rfl hkeys hscan hup (hlength ▸ hlimit) (hlength ▸ hcount)
  let layout := RowLayout.ofTable keys table job.normalised.isWanted
  let inside := stored.filter fun row => split.contains row.token
  refine ⟨stored, inside.map fun row => layout.record row.cells, rfl, hcells, htokens, rfl,
    ⟨reader, opened, rest, drained, hstart, ?_⟩, ?_⟩
  · rw [hdrain, List.map_map]
    rfl
  · obtain ⟨reader, opened, rest, drained, hstart, hdrain, hnothing⟩ :=
      read_lookup filters retry hlooking hkeys hcomposite hcandidates hall hlook hup
        (hlength ▸ hlimit) (hlength ▸ hcount)
    have hadmits (row : Memory.Stored) :
        lookup.admits keys (layout.record row.cells).keys = lookup.admits keys row.cells :=
      lookup.admits_record keys table _ row.cells
    refine ⟨reader, opened, rest, drained, hstart, ?_, hnothing⟩
    rw [hdrain, List.filter_map, List.map_map]
    simp only [Function.comp_def, hadmits]
    rfl

/-- Two rows in a split, one of which is handed out once for a candidate that is named twice. -/
theorem drain_lookup_two_rows :
    let tenant : Column := { name := "tenant", type := .blob }
    let bucket : Column := { name := "bucket", type := .blob }
    let keys : KeyLayout := ⟨tenant, [bucket], []⟩
    let row (b : UInt8) : Cells := .ofList [("tenant", some [1]), ("bucket", some [b])]
    let lookup : Lookup := ⟨"tenant", .blob [1], "bucket", [.blob [7], .blob [7]]⟩
    let job : Job :=
      { keyspace := "", table := "t", pageSize := 1, partitioner := "ByteOrderedPartitioner" }
    let split : Split := ⟨.bytes [0], .bytes [2], ["a"]⟩
    let table : Table := ⟨[tenant, bucket], [], [tenant, bucket]⟩
    ∃ (store : Memory.Store) (records : List Record),
      Memory.Store.ofRows keys .byteOrdered [row 7, row 4] = .ok store ∧
      records.Perm [⟨row 7, ∅⟩, ⟨row 4, ∅⟩] ∧
      (records.filter fun record => lookup.admits keys record.keys) = [⟨row 7, ∅⟩] ∧
      let shared : Shared Memory.World ℕ := ⟨⟨⟨[], [], 0⟩, { store }, .ok table⟩, ∅, {}⟩
      (∃ reader opened rest drained,
        Reader.start ⟨Memory.cluster, Query.standardFilters, {}⟩ 3 job split shared =
          some (.ok reader, opened) ∧
        reader.drain ⟨Memory.cluster, Query.standardFilters, {}⟩ 3 3 opened =
          some (records.map .ok, rest, drained)) ∧
      ∃ reader opened rest drained,
        Reader.start ⟨Memory.cluster, Query.standardFilters, {}⟩ 3
          { job with lookup := some lookup } split shared = some (.ok reader, opened) ∧
        reader.drain ⟨Memory.cluster, Query.standardFilters, {}⟩ 3 3 opened =
          some ((records.filter fun record => lookup.admits keys record.keys).map .ok, rest,
            drained) := by
  intro tenant bucket keys row lookup job split table
  have hrows : ∀ cells ∈ [row 7, row 4], keys.Covers cells := by
    intro cells hcells column hcolumn
    rcases List.mem_pair.1 hcells with rfl | rfl <;>
      rcases List.mem_pair.1 hcolumn with rfl | rfl <;>
      exact ⟨_, rfl, fun _ => by decide⟩
  obtain ⟨stored, hstore, -⟩ := Memory.Store.exists_ofRows hrows .byteOrdered
  let shared : Shared Memory.World ℕ :=
    ⟨⟨⟨[], [], 0⟩, { store := .table keys.shape stored }, .ok table⟩, ∅, {}⟩
  have hoffers : shared.world.Offers (.table keys.shape stored) table [] :=
    ⟨rfl, fun _ => rfl, rfl, rfl⟩
  have hcandidates : ∀ candidate ∈ lookup.inValues, ∃ key,
      lookup.keyOf keys.shape candidate = .ok key := by
    intro candidate hmem
    rcases List.mem_pair.1 hmem with rfl | rfl <;> exact ⟨_, rfl⟩
  have hkeys : table.keys = .ok keys := rfl
  have hpartition : keys.partition = [tenant, bucket] := rfl
  have hcheck : Job.check { job with lookup := some lookup } = .ok () := by decide
  have hpartitioner : Partitioner.ofIdentifier job.partitioner = .ok .byteOrdered := by decide
  have hup : ∃ endpoint ∈ split.replicas, ([] : List (String × Causes)).lookup endpoint = none :=
    ⟨"a", List.mem_singleton_self _, rfl⟩
  have hlength : [row 7, row 4].length < 3 := Nat.lt_succ_self 2
  obtain ⟨held, records, -, hcells, htokens, hrecords, hscan, reader, opened, rest, drained,
    hstart, hdrain, -⟩ :=
    drain_lookup Query.standardFilters {} hkeys hpartition hcheck hpartitioner hcandidates hstore
      hoffers hoffers hup hlength hlength
  let layout := RowLayout.ofTable keys table job.normalised.isWanted
  have hinside : (held.filter fun row => split.contains row.token) = held := by
    refine List.filter_eq_self.2 fun placed hmem => ?_
    have htoken := htokens placed hmem
    rcases List.mem_pair.1 (hcells.mem_iff.1 (List.mem_map_of_mem hmem)) with hrow | hrow
    all_goals
      rw [hrow] at htoken
      rw [← Except.ok.inj htoken]
      decide
  have hperm : records.Perm [⟨row 7, ∅⟩, ⟨row 4, ∅⟩] := by
    have hmap := hcells.map layout.record
    rw [List.map_map] at hmap
    rw [hrecords, hinside]
    exact hmap
  have hadmitted : (records.filter fun record => lookup.admits keys record.keys) =
      [⟨row 7, ∅⟩] :=
    List.perm_singleton.1 (hperm.filter _)
  exact ⟨_, records, hstore, hperm, hadmitted, hscan, reader, opened, rest, drained, hstart, hdrain⟩

end Reader

end RingScan
