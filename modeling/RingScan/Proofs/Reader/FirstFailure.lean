import RingScan.Proofs.Reader.Stages
import RingScan.Proofs.Scan.Views

/-!
# Where opening a reader stops

Opening a reader fails as the first of its stages that fails, and what later stages use is not
called any more.  To say this, the cluster is made to record its calls: what is recorded belongs to
stages up to the one with which opening ends.

## Main definitions

* `Reader.Opening.recorded`: opening with a record of every call of the cluster.
* `Reader.Opening.Ends`: opening ends with a stage, up to which calls are made.

## Main statements

* `Reader.Opening.exists_ends`: with which stage opening ends.
* `Reader.Opening.start_stops`: opening stops at the first stage that fails.
-/

namespace RingScan

variable {ω ι : Type}

/-! ### Records -/

/-- The stage that makes a call. -/
def Cluster.Event.stage : Event ι → Reader.Stage
  | connect _ => .connection
  | describe .. => .metadata
  | execute .. => .execution

/-- The services with a record of every call of the cluster. -/
def Services.recorded (services : Services ω ι) : Services (List (Cluster.Event ι) × ω) ι :=
  ⟨services.cluster.recorded, services.filters, services.retry⟩

/-- What is shared, beside a record of calls. -/
def Shared.recorded (shared : Shared ω ι) (events : List (Cluster.Event ι)) :
    Shared (List (Cluster.Event ι) × ω) ι :=
  ⟨(events, shared.world), shared.cache, shared.tally⟩

namespace Reader.Opening

variable {opening : Opening ω ι} {limit : ℕ} {stage other : Stage} {failure : Failure}

/-- The same with a record of every call of the cluster. -/
def recorded (opening : Opening ω ι) : Opening (List (Cluster.Event ι) × ω) ι :=
  ⟨opening.services.recorded, opening.job, opening.split, opening.before.recorded []⟩

/-- What is connected to is the same with a record, and there is a record of the attempts. -/
theorem exists_acquired_recorded (opening : Opening ω ι) :
    ∃ attempts : List (Cluster.Attempt ι),
      opening.recorded.acquired = (opening.acquired.1,
        (attempts.map .connect, opening.acquired.2.1), opening.acquired.2.2) := by
  let order := Endpoint.ordered opening.job.localAddresses opening.split.replicas
  obtain ⟨attempts, hsearch⟩ := Cluster.exists_search opening.services.cluster.connect
    opening.job.keyspace opening.before.cache order .noReplicas opening.before.world
  refine ⟨attempts, ?_⟩
  rw [acquired, acquired, Cluster.acquire_eq_mapError, Cluster.acquire_eq_mapError]
  exact congrArg (fun reached : Except ConnectionFault ι × (_ × ω) × Cache ι =>
    (reached.1.mapError (Failure.connection order), reached.2)) (hsearch.reach_recorded [])

theorem described_recorded (opening : Opening ω ι) :
    opening.recorded.described = (opening.described.1,
      opening.recorded.acquired.2.1.1 ++
        [.describe opening.job.keyspace opening.job.table opening.described.1],
      opening.described.2) := by
  obtain ⟨attempts, hacquired⟩ := opening.exists_acquired_recorded
  rw [described, hacquired]
  rfl

theorem stated?_recorded (opening : Opening ω ι) : opening.recorded.stated? = opening.stated? := by
  rw [stated?, described_recorded]
  rfl

/-- A stage before the first page fails with a record as it fails without one. -/
theorem fault?_recorded (hstage : stage < .execution) :
    opening.recorded.fault? limit stage = opening.fault? limit stage := by
  cases stage with
  | check | partitioner => rfl
  | connection =>
    obtain ⟨attempts, hacquired⟩ := opening.exists_acquired_recorded
    rw [fault?, hacquired, fault?]
  | metadata | keys => rw [fault?, described_recorded, fault?]
  | statement => rw [fault?, stated?_recorded, fault?]
  | execution => exact absurd hstage (Nat.lt_irrefl _)

/-- What is shared after a stage, with a record of the calls that stages up to it have made.  None
of these is an execution. -/
theorem exists_reached_recorded (opening : Opening ω ι) (stage : Stage) :
    ∃ events, opening.recorded.reached stage = (opening.reached stage).recorded events ∧
      ∀ event ∈ events, event.stage ≤ stage ∧ event.stage ≤ .metadata := by
  obtain ⟨attempts, hacquired⟩ := opening.exists_acquired_recorded
  have hconnects : ∀ event ∈ attempts.map Cluster.Event.connect, event.stage = .connection := by
    intro event hevent
    obtain ⟨attempt, -, rfl⟩ := List.mem_map.1 hevent
    rfl
  by_cases hstage : stage < .metadata
  · cases stage with
    | check | partitioner => exact ⟨[], rfl, nofun⟩
    | connection =>
      refine ⟨attempts.map .connect, ?_, fun event hevent => ?_⟩
      · simp only [reached, hacquired]
        rfl
      · rw [hconnects event hevent]
        decide
    | metadata | keys | statement | execution => exact absurd hstage (by decide)
  · have hreached : opening.recorded.reached stage = opening.recorded.reached .execution ∧
        opening.reached stage = opening.reached .execution := by
      cases stage with
      | check | partitioner | connection => exact absurd (by decide) hstage
      | metadata | keys | statement | execution => exact ⟨rfl, rfl⟩
    refine ⟨attempts.map .connect ++
      [.describe opening.job.keyspace opening.job.table opening.described.1], ?_, ?_⟩
    · rw [hreached.1, hreached.2]
      simp only [reached, described_recorded, hacquired]
      rfl
    · intro event hevent
      have hevent : event.stage ≤ .metadata := by
        rcases List.mem_append.1 hevent with hevent | hevent
        · rw [hconnects event hevent]
          decide
        · rw [List.mem_singleton.1 hevent]
          exact Nat.le_refl _
      exact ⟨Nat.le_trans hevent (Nat.not_lt.1 hstage), hevent⟩

/-- No call up to the description of the table is an execution. -/
private theorem execute_notMem {events : List (Cluster.Event ι)}
    (h : ∀ event ∈ events, event.stage ≤ stage ∧ event.stage ≤ .metadata) {connection : ι}
    {statement : Statement} {from? : Option Bytes} {result : Except ExecutionFault Page} :
    .execute connection statement from? result ∉ events :=
  fun hevent => absurd (h _ hevent).2 (show ¬ Stage.execution ≤ .metadata by decide)

theorem Passes.recorded {partitioner : Partitioner} {connection : ι} {table : Table}
    {keys : KeyLayout} {statement : Option Statement}
    (h : opening.Passes partitioner connection table keys statement) :
    opening.recorded.Passes partitioner connection table keys statement := by
  obtain ⟨attempts, hacquired⟩ := opening.exists_acquired_recorded
  refine ⟨h.settled, ?_, ?_, h.keyed, h.stated, opening.stated?_recorded.trans h.stated?⟩
  · rw [hacquired, h.acquired]
  · rw [described_recorded, h.described]

/-! ### The first page -/

/-- A session with a record shows the session without it. -/
theorem shows_recorded (cluster : Cluster ω ι) (connection : ι) :
    (cluster.recorded.session connection).Shows Prod.snd (cluster.session connection) where
  execute_eq _ _ _ := rfl
  pause_eq _ _ := rfl

/-- Pulling the pages of a statement is the same with a record, and there is a record of executions
of the statement, one of which is that from its beginning in the world of the pull. -/
theorem exists_pull_recorded {cluster : Cluster ω ι} {connection : ι} {retry : RetryPolicy}
    {statement : Statement} {world : ω} {tally : Tally} {after : Run ω}
    {answer : Except Failure Scan.Stage}
    (h : Scan.pull (cluster.session connection) retry statement limit none ⟨world, tally, {}⟩ =
      some (answer, after)) (events : List (Cluster.Event ι)) :
    ∃ executions, Scan.pull (cluster.recorded.session connection) retry statement limit none
        ⟨(events, world), tally, {}⟩ =
      some (answer, ⟨(events ++ executions, after.world), after.tally, after.stats⟩) ∧
      (∀ event ∈ executions, ∃ from? answer,
        event = .execute connection statement from? answer) ∧
      .execute connection statement none
        ((cluster.session connection).execute statement none world).1 ∈ executions := by
  have hshown := (shows_recorded cluster connection).pull statement retry limit none
    ⟨(events, world), tally, {}⟩
  obtain ⟨⟨answer, run⟩, hpull, hrun⟩ := Option.map_eq_some_iff.1 (hshown.trans h)
  cases hrun
  let first : Cluster.Event ι := .execute connection statement none
    ((cluster.session connection).execute statement none world).1
  have hrecord := Scan.pull_reaches (motive := fun world : List (Cluster.Event ι) × ω =>
      ∃ executions, world.1 = events ++ executions ∧
        (∀ event ∈ executions, ∃ from? answer,
          event = .execute connection statement from? answer) ∧ first ∈ executions)
    ?_ (fun _ => id) hpull ⟨[first], rfl, ?_, List.mem_singleton_self first⟩
  · obtain ⟨executions, hexecutions, hall, hfirst⟩ := hrecord
    refine ⟨executions, hpull.trans ?_, hall, hfirst⟩
    rw [← hexecutions]
    rfl
  · rintro world from? ⟨executions, hexecutions, hall, hfirst⟩
    refine ⟨executions ++ [.execute connection statement from?
      ((cluster.session connection).execute statement from? world.2).1], ?_, fun event hevent => ?_,
      List.mem_append_left _ hfirst⟩
    · rw [← List.append_assoc, ← hexecutions]
      rfl
    · rcases List.mem_append.1 hevent with hevent | hevent
      · exact hall event hevent
      · exact ⟨from?, _, List.mem_singleton.1 hevent⟩
  · exact fun event hevent => ⟨none, _, List.mem_singleton.1 hevent⟩

theorem FailsFirst.recorded (h : opening.FailsFirst limit stage failure)
    (hstage : stage < .execution) : opening.recorded.FailsFirst limit stage failure where
  fails := (fault?_recorded hstage).trans h.fails
  first earlier hearlier :=
    (fault?_recorded (Nat.lt_trans hearlier hstage)).trans (h.first earlier hearlier)

/-! ### Ends -/

/-- A reader has a row, or it is at its end. -/
def IsReady (reader : Reader ι) : Prop :=
  (∃ row rows continuation, reader.scan.stage = .buffered row rows continuation) ∨
    reader.scan.stage = .exhausted

/-- Opening ends with a stage, up to which calls are made. -/
structure Ends (opening : Opening ω ι) (limit : ℕ) (stage : Stage)
    (answer : Except Failure (Reader ι)) (after : Shared ω ι)
    (events : List (Cluster.Event ι)) : Prop where
  passed : ∀ earlier < stage, opening.fault? limit earlier = none
  failed : ∀ failure, opening.fault? limit stage = some failure → answer = .error failure
  counted : stage < .execution → after.tally = opening.before.tally.addFailure
  succeeded : opening.fault? limit stage = none →
    stage = .execution ∧ ∃ reader, answer = .ok reader ∧ IsReady reader
  cache_eq : after.cache = (opening.reached stage).cache
  stage_le : ∀ event ∈ events, event.stage ≤ stage
  executed : ∀ connection statement from? result,
    .execute connection statement from? result ∈ events →
    opening.acquired.1 = .ok connection ∧ opening.stated? = some (.ok (some statement))
  begun : (∀ earlier < .execution, opening.fault? limit earlier = none) →
    ∀ connection statement, opening.acquired.1 = .ok connection →
      opening.stated? = some (.ok (some statement)) →
      .execute connection statement none ((opening.services.cluster.session connection).execute
        statement none opening.described.2).1 ∈ events

/-- If a stage before the first page is the first one that fails, opening ends with it. -/
theorem FailsFirst.exists_ends (h : opening.FailsFirst limit stage failure)
    (hstage : stage < .execution) :
    ∃ answer after events, opening.start limit = some (answer, after) ∧
      opening.recorded.start limit = some (answer, after.recorded events) ∧
      opening.Ends limit stage answer after events := by
  obtain ⟨events, hreached, hevents⟩ := opening.exists_reached_recorded stage
  refine ⟨_, _, events, start_of_failsFirst h hstage, ?_, h.first, ?_, fun _ => rfl, ?_, rfl,
    fun event hevent => (hevents event hevent).1, ?_, fun hpassed => ?_⟩
  · rw [start_of_failsFirst (h.recorded hstage) hstage, hreached]
    rfl
  · intro other hother
    rw [Option.some.inj (h.fails.symm.trans hother)]
  · intro hnone
    cases h.fails.symm.trans hnone
  · exact fun _ _ _ _ hevent => absurd hevent (execute_notMem hevents)
  · cases h.fails.symm.trans (hpassed stage hstage)

section Passes

variable {partitioner : Partitioner} {connection : ι} {table : Table} {keys : KeyLayout}
  {statement : Statement}

/-- If there is nothing to execute, opening ends without an execution. -/
theorem Passes.exists_ends_of_nothing (h : opening.Passes partitioner connection table keys none)
    (hpassed : ∀ stage < .execution, opening.fault? limit stage = none) :
    ∃ answer after events, opening.start limit = some (answer, after) ∧
      opening.recorded.start limit = some (answer, after.recorded events) ∧
      opening.Ends limit .execution answer after events := by
  obtain ⟨events, hreached, hevents⟩ := opening.exists_reached_recorded .execution
  have hfault : opening.fault? limit .execution = none := by
    rw [fault?, h.executed?, Option.bind_none, Option.bind_none]
  refine ⟨_, _, events, start_of_nothing h.prepare limit, ?_, hpassed, ?_,
    fun hlt => absurd hlt (Nat.lt_irrefl _), ?_, rfl,
    fun event hevent => (hevents event hevent).1, ?_, ?_⟩
  · rw [start, start_of_nothing h.recorded.prepare, hreached]
    rfl
  · intro other hother
    cases hfault.symm.trans hother
  · exact fun _ => ⟨rfl, _, rfl, .inr rfl⟩
  · exact fun _ _ _ _ hevent => absurd hevent (execute_notMem hevents)
  · intro _ _ _ _ hstated
    cases h.stated?.symm.trans hstated

/-- If there is a statement, opening ends with its first page, unless there is no end to its
pages. -/
theorem Passes.exists_ends_of_statement
    (h : opening.Passes partitioner connection table keys (some statement))
    (hpassed : ∀ stage < .execution, opening.fault? limit stage = none)
    {answer : Except Failure (Reader ι)} {after : Shared ω ι}
    (hstart : opening.start limit = some (answer, after)) :
    ∃ events, opening.recorded.start limit = some (answer, after.recorded events) ∧
      opening.Ends limit .execution answer after events := by
  rw [h.start_of_statement, Option.map_eq_some_iff] at hstart
  obtain ⟨⟨result, run⟩, hpull, hanswer⟩ := hstart
  cases hanswer
  obtain ⟨events, hreached, hevents⟩ := opening.exists_reached_recorded .execution
  obtain ⟨executions, hrecorded, hexecutions, hfirst⟩ := exists_pull_recorded hpull events
  have hfault : opening.fault? limit .execution = error? result := by
    rw [fault?, h.executed?, Option.bind_some, hpull, Option.bind_some]
  refine ⟨events ++ executions, ?_, hpassed, ?_, fun hlt => absurd hlt (Nat.lt_irrefl _), ?_, rfl,
    ?_, ?_, ?_⟩
  · have hworld : opening.recorded.described.2 = (events, opening.described.2) :=
      congrArg Shared.world hreached
    have hcache : opening.recorded.acquired.2.2 = opening.acquired.2.2 :=
      congrArg Shared.cache hreached
    rw [h.recorded.start_of_statement, hworld, hcache]
    exact congrArg (Option.map _) hrecorded
  · intro failure hfailure
    rw [error?_eq_some_iff.1 (hfault.symm.trans hfailure)]
    rfl
  · intro hnone
    obtain ⟨stage, rfl⟩ := error?_eq_none_iff.1 (hfault.symm.trans hnone)
    exact ⟨rfl, _, rfl, Scan.stage_of_pull hpull⟩
  · intro event hevent
    rcases List.mem_append.1 hevent with hevent | hevent
    · exact (hevents event hevent).1
    · obtain ⟨from?, answer, rfl⟩ := hexecutions event hevent
      exact Nat.le_refl _
  · intro other executed from? answer hevent
    rcases List.mem_append.1 hevent with hevent | hevent
    · exact absurd hevent (execute_notMem hevents)
    · obtain ⟨_, _, hevent⟩ := hexecutions _ hevent
      cases hevent
      exact ⟨h.acquired, h.stated?⟩
  · intro _ other executed hacquired hstated
    cases h.acquired.symm.trans hacquired
    cases h.stated?.symm.trans hstated
    exact List.mem_append_right _ hfirst

end Passes

/-- Opening ends with a stage if it has a result. -/
theorem exists_ends {answer : Except Failure (Reader ι)} {after : Shared ω ι}
    (h : opening.start limit = some (answer, after)) :
    ∃ stage events, opening.recorded.start limit = some (answer, after.recorded events) ∧
      opening.Ends limit stage answer after events := by
  by_cases hearly : ∃ stage failure, opening.FailsFirst limit stage failure ∧ stage < .execution
  · obtain ⟨stage, failure, hfirst, hstage⟩ := hearly
    obtain ⟨answer, after, events, hstart, hrecorded, hends⟩ := hfirst.exists_ends hstage
    cases hstart.symm.trans h
    exact ⟨stage, events, hrecorded, hends⟩
  · have hpassed := fault?_eq_none_of_not_failsFirst hearly
    obtain ⟨partitioner, connection, table, keys, statement, hpasses⟩ := exists_passes hpassed
    cases statement with
    | none =>
      obtain ⟨answer, after, events, hstart, hrecorded, hends⟩ :=
        hpasses.exists_ends_of_nothing hpassed
      cases hstart.symm.trans h
      exact ⟨.execution, events, hrecorded, hends⟩
    | some statement => exact ⟨.execution, hpasses.exists_ends_of_statement hpassed h⟩

section Ends

variable {answer : Except Failure (Reader ι)} {after : Shared ω ι}
  {events : List (Cluster.Event ι)}

/-- If a stage is the first one that fails, opening ends with it. -/
theorem Ends.eq_of_failsFirst (h : opening.Ends limit stage answer after events)
    (hfirst : opening.FailsFirst limit other failure) : stage = other := by
  obtain hlt | heq | hlt := Nat.lt_trichotomy stage.rank other.rank
  · obtain ⟨rfl, -⟩ := h.succeeded (hfirst.first stage hlt)
    cases other <;> exact absurd hlt (by decide)
  · exact Stage.rank_injective heq
  · cases hfirst.fails.symm.trans (h.passed other hlt)

/-- A failure that is not one of an execution is counted once, and nothing else is. -/
theorem Ends.tally_eq (h : opening.Ends limit stage answer after events)
    (hanswer : answer = .error failure) (hio : failure.isIo = false) :
    after.tally = opening.before.tally.addFailure := by
  cases hfault : opening.fault? limit stage with
  | none =>
    obtain ⟨-, reader, hreader, -⟩ := h.succeeded hfault
    cases hanswer.symm.trans hreader
  | some other =>
    cases hanswer.symm.trans (h.failed other hfault)
    refine h.counted ?_
    have hraises : stage.Raises failure := FailsFirst.raises ⟨hfault, h.passed⟩
    cases stage with
    | check | partitioner | connection | metadata | keys | statement => decide
    | execution =>
      cases failure with
      | io => cases hio
      | _ => exact hraises.elim

end Ends

/-- **Opening a reader stops at the first stage that fails.**  It fails as this stage does, with a
failure of a kind that belongs to the stage, and calls of the cluster are made up to this stage
only; nor do the filters matter if the statement has not been reached.  If no stage fails, there is
a reader, which has a row or is at its end.  A call is made only after all stages before its own
have succeeded, and what is executed is the statement of the split, over the connection to its
replica.  If there is a statement and all stages before its execution succeed, it is executed from
its beginning.  A failure that is not one of an execution is counted once, and nothing else is
counted; and at most one new connection is kept, to a replica of the split.

Opening has no result only if there is no end to the pages without rows. -/
theorem start_stops (opening : Opening ω ι) (limit : ℕ) :
    (opening.start limit = none →
      (∀ stage < .execution, opening.fault? limit stage = none) ∧
      ∃ connection statement, opening.acquired.1 = .ok connection ∧
        opening.stated? = some (.ok (some statement)) ∧
        Scan.Barren (opening.services.cluster.session connection) opening.services.retry statement
          limit none ⟨opening.described.2, opening.before.tally.addScan, {}⟩) ∧
    ∀ answer after, opening.start limit = some (answer, after) →
      ∃ events, opening.recorded.start limit = some (answer, after.recorded events) ∧
        (∀ stage failure, opening.FailsFirst limit stage failure →
          answer = .error failure ∧ stage.Raises failure ∧
          (∀ event ∈ events, event.stage ≤ stage) ∧
          (stage < .statement → ∀ filters,
            (opening.withFilters filters).start limit = some (answer, after))) ∧
        ((∀ stage, opening.fault? limit stage = none) →
          ∃ reader, answer = .ok reader ∧ IsReady reader) ∧
        (∀ event ∈ events, ∀ earlier < event.stage, opening.fault? limit earlier = none) ∧
        (∀ connection statement from? result,
          .execute connection statement from? result ∈ events →
            opening.acquired.1 = .ok connection ∧
            opening.stated? = some (.ok (some statement))) ∧
        ((∀ stage < .execution, opening.fault? limit stage = none) →
          ∀ connection statement, opening.acquired.1 = .ok connection →
            opening.stated? = some (.ok (some statement)) →
            .execute connection statement none ((opening.services.cluster.session
              connection).execute statement none opening.described.2).1 ∈ events) ∧
        (∀ failure, answer = .error failure → failure.isIo = false →
          after.tally = opening.before.tally.addFailure) ∧
        (after.cache = opening.before.cache ∨
          ∃ endpoint ∈ opening.split.replicas, ∃ connection,
            opening.before.cache.find? ⟨endpoint, opening.job.keyspace⟩ = none ∧
            after.cache.entries =
              (⟨endpoint, opening.job.keyspace⟩, connection) :: opening.before.cache.entries) := by
  refine ⟨barren_of_start, fun answer after hstart => ?_⟩
  obtain ⟨stage, events, hrecorded, hends⟩ := exists_ends hstart
  refine ⟨events, hrecorded, ?_, ?_, ?_, hends.executed, hends.begun, ?_, ?_⟩
  · intro first failure hfirst
    obtain rfl := hends.eq_of_failsFirst hfirst
    refine ⟨hends.failed failure hfirst.fails, hfirst.raises, hends.stage_le, fun hlt filters => ?_⟩
    have hearly : stage < .execution := Nat.lt_trans hlt (by decide)
    rw [← hstart, start_of_failsFirst hfirst hearly,
      start_of_failsFirst (hfirst.withFilters hlt filters) hearly]
    cases stage <;> rfl
  · intro hnone
    exact (hends.succeeded (hnone stage)).2
  · intro event hevent earlier hearlier
    exact hends.passed earlier (Nat.lt_of_lt_of_le hearlier (hends.stage_le event hevent))
  · exact fun _ => hends.tally_eq
  · rw [hends.cache_eq]
    exact cache_reached opening stage

/-- A candidate that its column does not hold is found out before anything is executed. -/
theorem start_stops_candidate :
    let id : Column := { name := "id", type := .int }
    let ts : Column := { name := "ts", type := .int }
    let world : Memory.World := ⟨{}, { store := .fixed [] }, .ok ⟨[id, ts], [], [id, ts]⟩⟩
    let job : Job :=
      { keyspace := "ks", table := "t", lookup := some ⟨"id", .int 1, "ts", [.text "x"]⟩ }
    let opening : Opening Memory.World ℕ :=
      ⟨{ cluster := Memory.cluster }, job, ⟨.long 0, .long 1, ["a"]⟩, { world }⟩
    ∃ (after : Shared Memory.World ℕ) (events : List (Cluster.Event ℕ)),
      opening.recorded.start 1 =
        some (.error (.encoding (.mismatch .text .int)), after.recorded events) ∧
      (∀ event ∈ events, event.stage ≤ .statement) ∧ after.tally = { failures := 1 } := by
  intro id ts world job opening
  have hfirst : opening.FailsFirst 1 .statement (.encoding (.mismatch .text .int)) := by
    refine ⟨by decide, fun earlier hearlier => ?_⟩
    cases earlier with
    | check | partitioner | connection | metadata | keys => decide
    | statement | execution => exact absurd hearlier (by decide)
  obtain ⟨events, hrecorded, hstops, -, -, -, -, htally, -⟩ :=
    (start_stops opening 1).2 _ _ (start_of_failsFirst hfirst (by decide))
  exact ⟨_, events, hrecorded, (hstops _ _ hfirst).2.2.1, htally _ rfl rfl⟩

end Reader.Opening

end RingScan
