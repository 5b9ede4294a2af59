import RingScan.Proofs.Cluster.Nearest
import RingScan.Proofs.Reader.Balance
import RingScan.Proofs.Reader.Opening
import RingScan.Proofs.Scan.Announcement

/-!
# The stages of opening a reader

Opening a reader takes seven stages.  Each of them may fail, and some of them at once; opening then
fails as the first of these stages does.  What a stage fails with is told here for each stage by
itself, from what the stages give that it depends on, and not by going through them in their order.

## Main definitions

* `Reader.Stage`: the stages.
* `Reader.Opening`: what is given when a reader is opened.
* `Reader.Opening.fault?`: what a stage fails with.
* `Reader.Opening.FailsFirst`: the first stage that fails.
* `Reader.Opening.Passes`: no stage before the first page fails.

## Main statements

* `Reader.Opening.prepare_of_failsFirst`, `Reader.Opening.Passes.prepare`: where the stages before
  the first page end.
* `Reader.Opening.start_of_failsFirst`, `Reader.Opening.Passes.start_of_statement`: what opening
  then comes to.
-/

namespace RingScan

variable {ω ι : Type}

/-! ### Stages -/

namespace Reader

/-- The stages of opening a reader. -/
inductive Stage where
  /-- The job is checked. -/
  | check
  /-- The partitioner is found. -/
  | partitioner
  /-- A replica is connected to. -/
  | connection
  /-- The columns of the table are fetched. -/
  | metadata
  /-- The key columns are found. -/
  | keys
  /-- The statement is put together. -/
  | statement
  /-- The first page is fetched. -/
  | execution
  deriving DecidableEq, Repr

namespace Stage

/-- The number of stages before a stage. -/
def rank : Stage → ℕ
  | check => 0
  | partitioner => 1
  | connection => 2
  | metadata => 3
  | keys => 4
  | statement => 5
  | execution => 6

theorem rank_injective : Function.Injective rank := by
  intro stage other h
  cases stage <;> cases other <;> first | rfl | cases h

instance : LT Stage := ⟨fun stage other => stage.rank < other.rank⟩

instance : LE Stage := ⟨fun stage other => stage.rank ≤ other.rank⟩

instance : DecidableLT Stage := fun stage other =>
  inferInstanceAs (Decidable (stage.rank < other.rank))

instance : DecidableLE Stage := fun stage other =>
  inferInstanceAs (Decidable (stage.rank ≤ other.rank))

/-- A stage fails with failures of some kinds only. -/
def Raises : Stage → Failure → Prop
  | check, .configuration _ => True
  | partitioner, .configuration _ => True
  | connection, .connection _ _ => True
  | metadata, .metadata _ => True
  | keys, .configuration _ => True
  | statement, .configuration _ => True
  | statement, .encoding _ => True
  | execution, .io _ _ => True
  | _, _ => False

end Stage

/-- The failure of a result, if it is one. -/
def error? {ε α : Type} : Except ε α → Option ε
  | .ok _ => none
  | .error failure => some failure

theorem error?_eq_some_iff {ε α : Type} {result : Except ε α} {failure : ε} :
    error? result = some failure ↔ result = .error failure := by
  cases result with
  | ok => exact iff_of_false nofun nofun
  | error => rw [error?, Option.some.injEq, Except.error.injEq]

theorem error?_eq_none_iff {ε α : Type} {result : Except ε α} :
    error? result = none ↔ ∃ value, result = .ok value := by
  cases result with
  | ok value => exact iff_of_true rfl ⟨value, rfl⟩
  | error => exact iff_of_false nofun nofun

/-! ### What the stages come to -/

/-- What is given when a reader is opened. -/
structure Opening (ω ι : Type) where
  /-- What all readers use. -/
  services : Services ω ι
  /-- The job. -/
  job : Job
  /-- The split. -/
  split : Split
  /-- What all readers share, before the reader is opened. -/
  before : Shared ω ι

namespace Opening

variable (opening : Opening ω ι) (limit : ℕ)

/-- Opens the reader. -/
def start : Option (Except Failure (Reader ι) × Shared ω ι) :=
  Reader.start opening.services limit opening.job opening.split opening.before

/-- The connection to a replica. -/
def acquired : Except Failure ι × ω × Cache ι :=
  Cluster.acquire opening.services.cluster.connect opening.job.keyspace
    (Endpoint.ordered opening.job.localAddresses opening.split.replicas) opening.before.world
    opening.before.cache

/-- The columns of the table. -/
def described : Except Causes Table × ω :=
  opening.services.cluster.describe opening.job.keyspace opening.job.table opening.acquired.2.1

/-- The statement, for which the partitioner, the columns and the key columns must be known. -/
def stated? : Option (Except Failure (Option Statement)) :=
  (Partitioner.ofIdentifier opening.job.partitioner).toOption.bind fun partitioner =>
    opening.described.1.toOption.bind fun table =>
      table.keys.toOption.map fun keys =>
        (Template.ofJob opening.services.filters opening.job.normalised keys table).statement?
          opening.job.lookup keys.shape partitioner opening.split

/-- The first page, for which there must be a connection and a statement. -/
def executed? : Option (Except Failure Scan.Stage × Run ω) :=
  opening.acquired.1.toOption.bind fun connection =>
    opening.stated?.bind fun stated =>
      stated.toOption.join.bind fun statement =>
        Scan.pull (opening.services.cluster.session connection) opening.services.retry statement
          limit none ⟨opening.described.2, opening.before.tally.addScan, {}⟩

/-- What a stage fails with.  It does not fail if it lacks what it depends on. -/
def fault? : Stage → Option Failure
  | .check => (error? opening.job.check).map .configuration
  | .partitioner => (error? (Partitioner.ofIdentifier opening.job.partitioner)).map .configuration
  | .connection => error? opening.acquired.1
  | .metadata => (error? opening.described.1).map .metadata
  | .keys => opening.described.1.toOption.bind fun table => (error? table.keys).map .configuration
  | .statement => opening.stated?.bind error?
  | .execution => (opening.executed? limit).bind fun result => error? result.1

/-- A stage fails, and no stage before it does. -/
structure FailsFirst (stage : Stage) (failure : Failure) : Prop where
  fails : opening.fault? limit stage = some failure
  first : ∀ earlier < stage, opening.fault? limit earlier = none

/-- What is shared after a stage, if no page is fetched in it. -/
def reached : Stage → Shared ω ι
  | .check | .partitioner => opening.before
  | .connection => ⟨opening.acquired.2.1, opening.acquired.2.2, opening.before.tally⟩
  | .metadata | .keys | .statement | .execution =>
    ⟨opening.described.2, opening.acquired.2.2, opening.before.tally⟩

variable {opening limit} {stage other : Stage} {failure : Failure}

/-- If a stage fails, some stage is the first one that does. -/
theorem exists_failsFirst (hfails : opening.fault? limit stage ≠ none) :
    ∃ stage failure, opening.FailsFirst limit stage failure := by
  induction hrank : stage.rank using Nat.strongRecOn generalizing stage with
  | ind rank ih =>
    subst hrank
    by_cases hearlier : ∃ earlier < stage, opening.fault? limit earlier ≠ none
    · obtain ⟨earlier, hlt, hearlier⟩ := hearlier
      exact ih earlier.rank hlt hearlier rfl
    · obtain ⟨failure, hfailure⟩ := Option.ne_none_iff_exists'.1 hfails
      refine ⟨stage, failure, hfailure, fun earlier hlt => ?_⟩
      by_contra hother
      exact hearlier ⟨earlier, hlt, hother⟩

/-! ### The stages before the first page -/

theorem settle_of_check_error {job : Job} {fault : ConfigurationFault}
    (h : job.check = .error fault) : settle job = .error fault := by
  rw [settle, h]
  rfl

theorem settle_of_check {job : Job} (h : job.check = .ok ()) :
    settle job = Partitioner.ofIdentifier job.partitioner := by
  rw [settle, h]
  exact pure_bind () _

theorem check_eq_ok (h : opening.fault? limit .check = none) : opening.job.check = .ok () := by
  obtain ⟨⟨⟩, hcheck⟩ := error?_eq_none_iff.1 (Option.map_eq_none_iff.1 h)
  exact hcheck

theorem exists_settle (hcheck : opening.fault? limit .check = none)
    (hpartitioner : opening.fault? limit .partitioner = none) :
    ∃ partitioner, Partitioner.ofIdentifier opening.job.partitioner = .ok partitioner ∧
      settle opening.job = .ok partitioner := by
  rw [fault?, Option.map_eq_none_iff, error?_eq_none_iff] at hpartitioner
  obtain ⟨partitioner, h⟩ := hpartitioner
  exact ⟨partitioner, h, (settle_of_check (check_eq_ok hcheck)).trans h⟩

theorem exists_acquired (h : opening.fault? limit .connection = none) :
    ∃ connection, opening.acquired.1 = .ok connection := error?_eq_none_iff.1 h

theorem exists_described (h : opening.fault? limit .metadata = none) :
    ∃ table, opening.described.1 = .ok table :=
  error?_eq_none_iff.1 (Option.map_eq_none_iff.1 h)

theorem exists_keys {table : Table} (hdescribed : opening.described.1 = .ok table)
    (h : opening.fault? limit .keys = none) : ∃ keys, table.keys = .ok keys := by
  simp only [fault?, hdescribed, Except.toOption, Option.bind_some, Option.map_eq_none_iff] at h
  exact error?_eq_none_iff.1 h

theorem stated?_eq {partitioner : Partitioner} {table : Table} {keys : KeyLayout}
    (hpartitioner : Partitioner.ofIdentifier opening.job.partitioner = .ok partitioner)
    (hdescribed : opening.described.1 = .ok table) (hkeys : table.keys = .ok keys) :
    opening.stated? =
      some ((Template.ofJob opening.services.filters opening.job.normalised keys table).statement?
        opening.job.lookup keys.shape partitioner opening.split) := by
  simp only [stated?, hpartitioner, hdescribed, hkeys, Except.toOption, Option.bind_some,
    Option.map_some]

/-- The stages before the first page by what each of them gives. -/
theorem prepare_eq (opening : Opening ω ι) :
    prepare opening.services opening.job opening.split opening.before =
      match settle opening.job, opening.acquired.1, opening.described.1 with
      | .error fault, _, _ => (.error (.configuration fault), opening.before)
      | .ok _, .error failure, _ => (.error failure, opening.reached .connection)
      | .ok _, .ok _, .error causes => (.error (.metadata causes), opening.reached .metadata)
      | .ok partitioner, .ok connection, .ok table =>
        (assemble opening.services opening.job.normalised opening.split partitioner connection
          table, opening.reached .execution) := by
  rw [prepare]
  cases settle opening.job with
  | error fault => rfl
  | ok partitioner =>
    simp only [reached, described, acquired]
    rcases Cluster.acquire opening.services.cluster.connect opening.job.keyspace
      (Endpoint.ordered opening.job.localAddresses opening.split.replicas) opening.before.world
      opening.before.cache with ⟨failure | connection, world, cache⟩
    · rfl
    · rcases hdescribe : opening.services.cluster.describe opening.job.keyspace opening.job.table
        world with ⟨causes | table, after⟩ <;> simp only [hdescribe]

/-- If a stage before the first page is the first one that fails, these stages end with it. -/
theorem prepare_of_failsFirst (h : opening.FailsFirst limit stage failure)
    (hstage : stage < .execution) :
    prepare opening.services opening.job opening.split opening.before =
      (.error failure, opening.reached stage) := by
  obtain ⟨hfails, hfirst⟩ := h
  rw [prepare_eq]
  cases stage with
  | check =>
    obtain ⟨fault, hfault, rfl⟩ := Option.map_eq_some_iff.1 hfails
    simp only [settle_of_check_error (error?_eq_some_iff.1 hfault), reached]
  | partitioner =>
    have hcheck := check_eq_ok (hfirst .check (by decide))
    rw [fault?, Option.map_eq_some_iff] at hfails
    obtain ⟨fault, hfault, rfl⟩ := hfails
    simp only [settle_of_check hcheck, error?_eq_some_iff.1 hfault, reached]
  | connection =>
    obtain ⟨partitioner, -, hsettle⟩ :=
      exists_settle (hfirst .check (by decide)) (hfirst .partitioner (by decide))
    simp only [hsettle, error?_eq_some_iff.1 hfails]
  | metadata =>
    obtain ⟨partitioner, -, hsettle⟩ :=
      exists_settle (hfirst .check (by decide)) (hfirst .partitioner (by decide))
    obtain ⟨connection, hacquired⟩ := exists_acquired (hfirst .connection (by decide))
    obtain ⟨causes, hcauses, rfl⟩ := Option.map_eq_some_iff.1 hfails
    simp only [hsettle, hacquired, error?_eq_some_iff.1 hcauses]
  | keys =>
    obtain ⟨partitioner, -, hsettle⟩ :=
      exists_settle (hfirst .check (by decide)) (hfirst .partitioner (by decide))
    obtain ⟨connection, hacquired⟩ := exists_acquired (hfirst .connection (by decide))
    obtain ⟨table, hdescribed⟩ := exists_described (hfirst .metadata (by decide))
    simp only [fault?, hdescribed, Except.toOption, Option.bind_some] at hfails
    obtain ⟨fault, hfault, rfl⟩ := Option.map_eq_some_iff.1 hfails
    simp only [hsettle, hacquired, hdescribed,
      assemble_of_keys_error (error?_eq_some_iff.1 hfault), reached]
  | statement =>
    obtain ⟨partitioner, hpartitioner, hsettle⟩ :=
      exists_settle (hfirst .check (by decide)) (hfirst .partitioner (by decide))
    obtain ⟨connection, hacquired⟩ := exists_acquired (hfirst .connection (by decide))
    obtain ⟨table, hdescribed⟩ := exists_described (hfirst .metadata (by decide))
    obtain ⟨keys, hkeys⟩ := exists_keys hdescribed (hfirst .keys (by decide))
    simp only [fault?, stated?_eq hpartitioner hdescribed hkeys, Option.bind_some] at hfails
    have hassemble : assemble opening.services opening.job.normalised opening.split partitioner
        connection table = .error failure := by
      rw [assemble_of_keys hkeys, show opening.job.normalised.lookup = opening.job.lookup from rfl,
        error?_eq_some_iff.1 hfails]
      rfl
    simp only [hsettle, hacquired, hdescribed, hassemble, reached]
  | execution => exact absurd hstage (Nat.lt_irrefl _)

/-- No stage before the first page fails, and this is what they give. -/
structure Passes (opening : Opening ω ι) (partitioner : Partitioner) (connection : ι)
    (table : Table) (keys : KeyLayout) (statement : Option Statement) : Prop where
  settled : settle opening.job = .ok partitioner
  acquired : opening.acquired.1 = .ok connection
  described : opening.described.1 = .ok table
  keyed : table.keys = .ok keys
  stated : (Template.ofJob opening.services.filters opening.job.normalised keys table).statement?
    opening.job.lookup keys.shape partitioner opening.split = .ok statement
  stated? : opening.stated? = some (.ok statement)

theorem exists_passes (h : ∀ stage < .execution, opening.fault? limit stage = none) :
    ∃ partitioner connection table keys statement,
      opening.Passes partitioner connection table keys statement := by
  obtain ⟨partitioner, hpartitioner, hsettle⟩ :=
    exists_settle (h .check (by decide)) (h .partitioner (by decide))
  obtain ⟨connection, hacquired⟩ := exists_acquired (h .connection (by decide))
  obtain ⟨table, hdescribed⟩ := exists_described (h .metadata (by decide))
  obtain ⟨keys, hkeys⟩ := exists_keys hdescribed (h .keys (by decide))
  have hstatement := h .statement (by decide)
  have hstated := stated?_eq hpartitioner hdescribed hkeys
  simp only [fault?, hstated, Option.bind_some] at hstatement
  obtain ⟨statement, hstatement⟩ := error?_eq_none_iff.1 hstatement
  exact ⟨partitioner, connection, table, keys, statement, hsettle, hacquired, hdescribed, hkeys,
    hstatement, by rw [hstated, hstatement]⟩

section Passes

variable {partitioner : Partitioner} {connection : ι} {table : Table} {keys : KeyLayout}
  {statement : Option Statement}

theorem Passes.prepare (h : opening.Passes partitioner connection table keys statement) :
    Reader.prepare opening.services opening.job opening.split opening.before =
      (.ok (unopened opening.services opening.job.normalised opening.split partitioner connection
        table keys statement), opening.reached .execution) := by
  have hlookup : opening.job.normalised.lookup = opening.job.lookup := rfl
  rw [prepare_eq]
  simp only [h.settled, h.acquired, h.described, assemble_of_keys h.keyed, hlookup, h.stated]
  rfl

/-- What is fetched is the first page of the statement, if there is one. -/
theorem Passes.executed? (h : opening.Passes partitioner connection table keys statement) :
    opening.executed? limit = statement.bind fun statement =>
      Scan.pull (opening.services.cluster.session connection) opening.services.retry statement
        limit none ⟨opening.described.2, opening.before.tally.addScan, {}⟩ := by
  rw [Opening.executed?, h.acquired, h.stated?]
  rfl

end Passes

/-! ### Opening -/

theorem FailsFirst.raises (h : opening.FailsFirst limit stage failure) : stage.Raises failure := by
  have hfails := h.fails
  cases stage with
  | check | partitioner | metadata =>
    rw [fault?, Option.map_eq_some_iff] at hfails
    obtain ⟨fault, -, rfl⟩ := hfails
    trivial
  | connection =>
    obtain ⟨fault, rfl⟩ := Cluster.fault_of_acquire (error?_eq_some_iff.1 hfails)
    trivial
  | keys =>
    obtain ⟨table, -, hfails⟩ := Option.bind_eq_some_iff.1 hfails
    obtain ⟨fault, -, rfl⟩ := Option.map_eq_some_iff.1 hfails
    trivial
  | statement =>
    rw [fault?, Option.bind_eq_some_iff] at hfails
    obtain ⟨stated, hstated, herror⟩ := hfails
    rw [stated?, Option.bind_eq_some_iff] at hstated
    obtain ⟨partitioner, -, hstated⟩ := hstated
    obtain ⟨table, -, hstated⟩ := Option.bind_eq_some_iff.1 hstated
    obtain ⟨keys, -, rfl⟩ := Option.map_eq_some_iff.1 hstated
    rcases Template.fault_of_statement? (error?_eq_some_iff.1 herror) with
      ⟨fault, rfl⟩ | ⟨fault, rfl⟩ <;> trivial
  | execution =>
    obtain ⟨⟨answer, run⟩, hexecuted, herror⟩ := Option.bind_eq_some_iff.1 hfails
    obtain ⟨connection, -, hexecuted⟩ := Option.bind_eq_some_iff.1 hexecuted
    obtain ⟨stated, -, hexecuted⟩ := Option.bind_eq_some_iff.1 hexecuted
    obtain ⟨statement, -, hpull⟩ := Option.bind_eq_some_iff.1 hexecuted
    have hio := (Scan.pull_fetches hpull).1.isIo failure (error?_eq_some_iff.1 herror)
    cases failure with
    | io => trivial
    | _ => cases hio

/-- The same with other filters. -/
def withFilters (opening : Opening ω ι) (filters : Query.Filters) : Opening ω ι :=
  { opening with services := { opening.services with filters } }

/-- Filters are not made before the statement. -/
theorem FailsFirst.withFilters (h : opening.FailsFirst limit stage failure)
    (hstage : stage < .statement) (filters : Query.Filters) :
    (opening.withFilters filters).FailsFirst limit stage failure := by
  have hfault : ∀ earlier < Stage.statement,
      (opening.withFilters filters).fault? limit earlier = opening.fault? limit earlier := by
    intro earlier hearlier
    cases earlier with
    | check | partitioner | connection | metadata | keys => rfl
    | statement | execution => exact absurd hearlier (by decide)
  exact ⟨(hfault stage hstage).trans h.fails, fun earlier hearlier =>
    (hfault earlier (Nat.lt_trans hearlier hstage)).trans (h.first earlier hearlier)⟩

/-- If a stage before the first page is the first one that fails, opening fails as it does, and the
failure is counted. -/
theorem start_of_failsFirst (h : opening.FailsFirst limit stage failure)
    (hstage : stage < .execution) :
    opening.start limit = some (.error failure,
      { opening.reached stage with tally := opening.before.tally.addFailure }) := by
  have htally : (opening.reached stage).tally = opening.before.tally := by cases stage <;> rfl
  rw [start, start_of_prepare_error (prepare_of_failsFirst h hstage), htally]

/-- If no stage before the first page is the first one that fails, none of them fails. -/
theorem fault?_eq_none_of_not_failsFirst
    (h : ¬ ∃ stage failure, opening.FailsFirst limit stage failure ∧ stage < .execution) :
    ∀ stage < .execution, opening.fault? limit stage = none := by
  intro stage hstage
  by_contra hfails
  obtain ⟨first, failure, hfirst⟩ := exists_failsFirst hfails
  refine h ⟨first, failure, hfirst, Nat.lt_of_le_of_lt (Nat.not_lt.1 fun hlt => ?_) hstage⟩
  exact hfails (hfirst.first stage hlt)

/-- If there is a statement, opening comes to its first page. -/
theorem Passes.start_of_statement {partitioner : Partitioner} {connection : ι} {table : Table}
    {keys : KeyLayout} {statement : Statement}
    (h : opening.Passes partitioner connection table keys (some statement)) (limit : ℕ) :
    opening.start limit =
      (Scan.pull (opening.services.cluster.session connection) opening.services.retry statement
        limit none ⟨opening.described.2, opening.before.tally.addScan, {}⟩).map fun (result, run) =>
          (result.map fun stage =>
              { unopened opening.services opening.job.normalised opening.split partitioner
                  connection table keys (some statement) with
                scan := ⟨some statement,
                  RowLayout.ofTable keys table opening.job.normalised.isWanted,
                  opening.services.retry, stage, run.stats⟩ },
            ⟨run.world, opening.acquired.2.2, run.tally⟩) :=
  Reader.start_of_statement h.prepare limit

/-- Opening has no result only if there is no end to the pages without rows. -/
theorem barren_of_start (h : opening.start limit = none) :
    (∀ stage < .execution, opening.fault? limit stage = none) ∧
      ∃ connection statement, opening.acquired.1 = .ok connection ∧
        opening.stated? = some (.ok (some statement)) ∧
        Scan.Barren (opening.services.cluster.session connection) opening.services.retry statement
          limit none ⟨opening.described.2, opening.before.tally.addScan, {}⟩ := by
  have hpassed : ∀ stage < .execution, opening.fault? limit stage = none := by
    refine fault?_eq_none_of_not_failsFirst ?_
    rintro ⟨stage, failure, hfirst, hstage⟩
    cases (start_of_failsFirst hfirst hstage).symm.trans h
  obtain ⟨partitioner, connection, table, keys, statement, hpasses⟩ := exists_passes hpassed
  refine ⟨hpassed, ?_⟩
  cases statement with
  | none => cases (start_of_nothing hpasses.prepare limit).symm.trans h
  | some statement =>
    rw [hpasses.start_of_statement, Option.map_eq_none_iff] at h
    exact ⟨connection, statement, hpasses.acquired, hpasses.stated?, Scan.barren_of_pull h⟩

/-- The cache gets at most one new connection, to a replica of the split. -/
theorem cache_reached (opening : Opening ω ι) (stage : Stage) :
    (opening.reached stage).cache = opening.before.cache ∨
      ∃ endpoint ∈ opening.split.replicas, ∃ connection,
        opening.before.cache.find? ⟨endpoint, opening.job.keyspace⟩ = none ∧
        (opening.reached stage).cache.entries =
          (⟨endpoint, opening.job.keyspace⟩, connection) :: opening.before.cache.entries := by
  have hacquired : opening.acquired.2.2 = opening.before.cache ∨
      ∃ endpoint ∈ opening.split.replicas, ∃ connection,
        opening.before.cache.find? ⟨endpoint, opening.job.keyspace⟩ = none ∧
        opening.acquired.2.2.entries =
          (⟨endpoint, opening.job.keyspace⟩, connection) :: opening.before.cache.entries := by
    simpa only [Endpoint.mem_ordered_iff, acquired] using Cluster.cache_of_acquire
      opening.services.cluster.connect opening.job.keyspace
      (Endpoint.ordered opening.job.localAddresses opening.split.replicas) opening.before.world
      opening.before.cache
  cases stage with
  | check | partitioner => exact .inl rfl
  | connection | metadata | keys | statement | execution => exact hacquired

end Opening

end Reader

end RingScan
