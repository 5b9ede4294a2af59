import RingScan.Cluster.Basic
import RingScan.Row.Place
import RingScan.Scan.Basic

/-!
# Readers

A reader hands out the rows of one split.  Opening it takes several stages, the first failure of
which is the result: the job is checked, its partitioner found, a replica connected to, the local
ones first, the columns of the table are fetched, its keys found, the statement put together, and
its first page fetched.

## Main definitions

* `Services`: what all readers of a job use.
* `Shared`: what all readers of a job change.
* `Reader`: a reader of one split.
* `Reader.prepare`: the stages before the first page.
* `Reader.start`: opens a reader.
* `Reader.next`, `Reader.drain`, `Reader.stream`: the rows of a reader.
* `Reader.reachesEnd`: whether a record stands at the end of the split.

## Main statements

* `Reader.assemble_of_keys`: a reader is put together if it is known what its statement is.
-/

namespace RingScan

/-- What all readers of a job use. -/
structure Services (ω ι : Type) where
  /-- The cluster that is read from. -/
  cluster : Cluster ω ι
  /-- What makes the filters of a scan. -/
  filters : Query.Filters := Query.standardFilters
  /-- How often a statement is tried. -/
  retry : RetryPolicy := {}

/-- What all readers of a job change. -/
structure Shared (ω ι : Type) where
  /-- The world that the cluster acts on. -/
  world : ω
  /-- The connections that are kept. -/
  cache : Cache ι := ∅
  /-- The counters. -/
  tally : Tally := {}

/-- A reader of one split. -/
structure Reader (ι : Type) where
  /-- The job, with its wanted columns trimmed. -/
  job : Job
  /-- The split. -/
  split : Split
  /-- The partitioner of the job. -/
  partitioner : Partitioner
  /-- The key columns of the table. -/
  keys : KeyLayout
  /-- The connection that is read from. -/
  connection : ι
  /-- The rows. -/
  scan : Scan

namespace Reader

variable {ω ι : Type} (services : Services ω ι)

/-- What a job and a split say before anything is connected to: the partitioner. -/
def settle (job : Job) : Except ConfigurationFault Partitioner := do
  job.check
  Partitioner.ofIdentifier job.partitioner

/-- The reader of a table, with its statement put together. -/
def assemble (job : Job) (split : Split) (partitioner : Partitioner) (connection : ι)
    (table : Table) : Except Failure (Reader ι) := do
  let keys ← table.keys.mapError .configuration
  let template := Template.ofJob services.filters job keys table
  let statement ← template.statement? job.lookup keys.shape partitioner split
  let layout := RowLayout.ofTable keys table job.isWanted
  .ok ⟨job, split, partitioner, keys, connection, { statement, layout, retry := services.retry }⟩

section Assemble

variable {services} {job : Job} {split : Split} {partitioner : Partitioner} {connection : ι}
  {table : Table} {keys : KeyLayout}

/-- A table without a partition key has no reader. -/
theorem assemble_of_keys_error {fault : ConfigurationFault} (h : table.keys = .error fault) :
    assemble services job split partitioner connection table = .error (.configuration fault) := by
  rw [assemble, h]
  rfl

/-- A reader is put together if there is an answer to what its statement is. -/
theorem assemble_of_keys (h : table.keys = .ok keys) :
    assemble services job split partitioner connection table =
      ((Template.ofJob services.filters job keys table).statement? job.lookup keys.shape partitioner
        split).map fun statement => ⟨job, split, partitioner, keys, connection,
          { statement, layout := RowLayout.ofTable keys table job.isWanted,
            retry := services.retry }⟩ := by
  rw [assemble, h]
  change (do
    let statement ← (Template.ofJob services.filters job keys table).statement? job.lookup
      keys.shape partitioner split
    _) = _
  cases (Template.ofJob services.filters job keys table).statement? job.lookup keys.shape
    partitioner split <;> rfl

end Assemble

/-- The stages before the first page. -/
def prepare (job : Job) (split : Split) (shared : Shared ω ι) :
    Except Failure (Reader ι) × Shared ω ι :=
  match settle job with
  | .error fault => (.error (.configuration fault), shared)
  | .ok partitioner =>
    let candidates := Endpoint.ordered job.localAddresses split.replicas
    match Cluster.acquire services.cluster.connect job.keyspace candidates shared.world
        shared.cache with
    | (.error failure, world, cache) => (.error failure, { shared with world, cache })
    | (.ok connection, world, cache) =>
      match services.cluster.describe job.keyspace job.table world with
      | (.error causes, world) => (.error (.metadata causes), { shared with world, cache })
      | (.ok table, world) =>
        (assemble services job.normalised split partitioner connection table,
          { shared with world, cache })

/-- A reader and what it shares after a call of its scan. -/
def continued {α : Type} (reader : Reader ι) (shared : Shared ω ι) (outcome : Scan.Outcome ω α) :
    α × Reader ι × Shared ω ι :=
  (outcome.answer, { reader with scan := outcome.scan },
    { shared with world := outcome.world, tally := outcome.tally })

/-- Opens a reader.  A failure before the first page is counted here, one of an execution where it
happens. -/
def start (limit : Nat) (job : Job) (split : Split) (shared : Shared ω ι) :
    Option (Except Failure (Reader ι) × Shared ω ι) :=
  match prepare services job split shared with
  | (.error failure, shared) =>
    some (.error failure, { shared with tally := shared.tally.addFailure })
  | (.ok reader, shared) =>
    match reader.scan.start (services.cluster.session reader.connection) limit shared.world
        shared.tally.addScan with
    | none => none
    | some outcome =>
      match continued reader shared outcome with
      | (.ok (), reader, shared) => some (.ok reader, shared)
      | (.error failure, _, shared) => some (.error failure, shared)

/-- There is a record or a failure to report. -/
def hasNext (reader : Reader ι) : Bool :=
  reader.scan.hasNext

/-- Takes the next row, if there is one. -/
def take (limit : Nat) (reader : Reader ι) (shared : Shared ω ι) :
    Option (Except Failure (Option Record) × Reader ι × Shared ω ι) :=
  (reader.scan.next (services.cluster.session reader.connection) limit shared.world
    shared.tally).map (continued reader shared)

/-- Takes the next row; that there is none is a failure. -/
def next (limit : Nat) (reader : Reader ι) (shared : Shared ω ι) :
    Option (Except Failure Record × Reader ι × Shared ω ι) :=
  match reader.take services limit shared with
  | none => none
  | some (.ok (some record), reader, shared) => some (.ok record, reader, shared)
  | some (.ok none, reader, shared) => some (.error .exhausted, reader, shared)
  | some (.error failure, reader, shared) => some (.error failure, reader, shared)

/-- Takes the next row as long as there is something to report, at most `count` times. -/
def drain (limit : Nat) : Nat → Reader ι → Shared ω ι →
    Option (List (Except Failure Record) × Reader ι × Shared ω ι)
  | 0, _, _ => none
  | count + 1, reader, shared =>
    if reader.hasNext then
      match reader.next services limit shared with
      | none => none
      | some (item, reader, shared) =>
        (drain limit count reader shared).map fun (items, rest) => (item :: items, rest)
    else some ([], reader, shared)

/-- Takes rows, at most `count` of them, up to the first failure or to where there is none. -/
def stream (limit : Nat) : Nat → Reader ι → Shared ω ι →
    Option (List (Except Failure Record) × Shared ω ι)
  | 0, _, _ => none
  | count + 1, reader, shared =>
    match reader.take services limit shared with
    | none => none
    | some (.ok (some record), reader, shared) =>
      (stream limit count reader shared).map fun (items, shared) => (.ok record :: items, shared)
    | some (.ok none, _, shared) => some ([], shared)
    | some (.error failure, _, shared) => some ([.error failure], shared)

/-- A record stands at the end of the split. -/
def reachesEnd (reader : Reader ι) (record : Record) : Except EncodingFault Bool :=
  reader.keys.reachesEnd reader.partitioner reader.split record.keys

end Reader

end RingScan
