import RingScan.Proofs.Cluster.Nearest
import RingScan.Proofs.Memory.Table
import RingScan.Proofs.Reader.Drain
import RingScan.Proofs.Reader.Opening

/-!
# Readers of tables in memory

A reader of a table in memory is opened as soon as its split has an endpoint that is not down and it
is known what its statement is.  If there is a statement and no execution meets a fault, the reader
hands out the rows that the table chooses for the values of the statement, in the order in which the
table keeps them.

## Main statements

* `Reader.exists_finds`: connecting to the cluster around a table in memory.
* `Reader.read_chosen`: what the reader of one statement hands out.
-/

namespace RingScan

namespace Reader

variable {filters : Query.Filters} {retry : RetryPolicy} {job : Job} {partitioner : Partitioner}
  {table : Table} {keys : KeyLayout} {down : List (String × Causes)} {limit count : ℕ}
  {split : Split} {shared : Shared Memory.World ℕ}

variable (filters retry job) in
/-- An endpoint that is not down accepts a connection and tells the columns of the table.  Nothing
is executed for that. -/
theorem exists_finds {store : Memory.Store} (hoffers : shared.world.Offers store table down)
    (hup : ∃ endpoint ∈ split.replicas, down.lookup endpoint = none) :
    ∃ connection after,
      Services.Finds ⟨Memory.cluster, filters, retry⟩ job split shared connection table after ∧
      after.world.Offers store table down ∧ after.world.node = shared.world.node := by
  obtain ⟨endpoint, hmem, hendpoint⟩ := hup
  obtain ⟨connection, world, cache, hacquire, hworld, hnode⟩ :=
    hoffers.exists_acquire job.keyspace (Endpoint.mem_ordered_iff.2 hmem) hendpoint
      shared.cache
  refine ⟨connection, ⟨world, cache, shared.tally⟩, ⟨⟨world, hacquire, ?_⟩, rfl⟩, hworld, hnode⟩
  exact congrArg (·, world) hworld.table_eq

/-- The reader of a statement hands out the rows that the table chooses for its values. -/
theorem read_chosen {rows : List Memory.Stored} {statement : Statement} {cells : List Cells}
    (hsettle : settle job = .ok partitioner) (hkeys : table.keys = .ok keys)
    (hstatement : (Template.ofJob filters job.normalised keys table).statement? job.lookup
      keys.shape partitioner split = .ok (some statement))
    (hchosen : Memory.Store.chosen keys.shape rows statement.values = .ok cells)
    (hoffers : shared.world.Offers (.table keys.shape rows) table down)
    (hup : ∃ endpoint ∈ split.replicas, down.lookup endpoint = none)
    (hlimit : cells.length < limit) (hcount : cells.length < count) :
    ∃ reader opened rest drained,
      Reader.start ⟨Memory.cluster, filters, retry⟩ limit job split shared =
        some (.ok reader, opened) ∧
      reader.drain ⟨Memory.cluster, filters, retry⟩ limit count opened =
        some (cells.map fun row =>
          .ok ((RowLayout.ofTable keys table job.normalised.isWanted).record row), rest, drained) ∧
      drained.world.Offers (.table keys.shape rows) table down := by
  obtain ⟨connection, after, hfinds, hafter, -⟩ := exists_finds filters retry job hoffers hup
  let size := max 1 statement.pageSize.toNat
  have hsize : 0 < size := by omega
  have hserves : (Memory.Store.table keys.shape rows).Serves statement
      (fun i => Memory.writePosition (i * size)) (Memory.chunks size cells) :=
    Memory.Store.serves_table rfl hchosen
  have hmeets : (Memory.World.paged hserves after.world.network (.ok table) connection).Meets
      after.world (Stream'.const none) := ⟨⟨rfl, hafter.table_eq⟩, hafter.store_eq, hafter.faces⟩
  have hpages : (Memory.chunks size cells).length ≤ cells.length := by
    rw [Memory.length_chunks]
    exact Memory.chunkCount_le hsize cells
  have hflatten : (Memory.chunks size cells).flatten = cells := Memory.flatten_chunks hsize cells
  obtain ⟨reader, opened, rest, drained, hstart, hdrain, hleft⟩ :=
    read_of_prepare (prepare_of_finds hsettle hfinds hkeys hstatement) hmeets
      (show _ < limit by omega)
      (show (Memory.chunks size cells).flatten.length < count by rwa [hflatten])
  obtain ⟨⟨hnetwork, htable⟩, hstore, hfaces⟩ := hleft
  refine ⟨reader, opened, rest, drained, hstart, by rw [hdrain, hflatten], hstore, hfaces, htable,
    ?_⟩
  rw [hnetwork, hafter.down_eq]

end Reader

end RingScan
