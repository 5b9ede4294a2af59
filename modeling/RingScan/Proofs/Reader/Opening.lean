import RingScan.Reader.Basic

/-!
# What opening a reader executes

To tell which statements opening a reader executes, the cluster is made to note them in its world.
Nothing else changes: a reader answers as it would without the notes.  Opening then comes to one of
three things: it fails before anything is executed, it finds that there is nothing to execute, or it
executes the statement that belongs to the split, and no other one.

## Main definitions

* `Session.noting`, `Cluster.noting`, `Services.noting`: the same with a note of every statement
  that is executed.
* `Services.Finds`: a replica accepts a connection and tells the columns of the table.
* `Reader.Reaches`: what an answer and the executed statements come to.

## Main statements

* `Scan.exists_pull_noting`: fetching pages executes one statement only.
* `Reader.start_reaches`: opening reaches the statement that the trimmed job has for the split.
* `Reader.start_isSome`: opening has a result if the first page has rows or is the last one.
-/

namespace RingScan

variable {σ ω ι : Type}

/-! ### Notes -/

/-- The session with a note of every statement that is executed, the last one first. -/
def Session.noting (session : Session σ) : Session (List Statement × σ) where
  execute statement from? world :=
    let (answer, after) := session.execute statement from? world.2
    (answer, statement :: world.1, after)
  pause delay world := (world.1, session.pause delay world.2)

/-- The cluster with a note of every statement that is executed. -/
def Cluster.noting (cluster : Cluster ω ι) : Cluster (List Statement × ω) ι where
  connect target world :=
    let (result, after) := cluster.connect target world.2
    (result, world.1, after)
  describe keyspace table world :=
    let (result, after) := cluster.describe keyspace table world.2
    (result, world.1, after)
  session connection := (cluster.session connection).noting

/-- The services with a note of every statement that is executed. -/
def Services.noting (services : Services ω ι) : Services (List Statement × ω) ι :=
  ⟨services.cluster.noting, services.filters, services.retry⟩

/-- What is shared, beside notes. -/
def Shared.withNotes (shared : Shared ω ι) (notes : List Statement) :
    Shared (List Statement × ω) ι :=
  ⟨(notes, shared.world), shared.cache, shared.tally⟩

/-- The world and the counters, beside notes. -/
def Run.withNotes (run : Run σ) (notes : List Statement) : Run (List Statement × σ) :=
  ⟨(notes, run.world), run.tally, run.stats⟩

/-! ### Executions -/

namespace Session

variable (session : Session σ) (statement : Statement) (delay : Nat) (from? : Option Bytes)

/-- A fetch that makes no further attempt executes its statement once. -/
theorem fetchWithin_noting_of_last {left : Nat} {run : Run σ}
    (hlast : ∀ fault, (session.execute statement from? run.world).1 = .error fault →
      fault.isTransient = true → left = 0) (made : Nat) (notes : List Statement) :
    session.noting.fetchWithin statement delay from? left made (run.withNotes notes) =
      ((session.fetchWithin statement delay from? left made run).1,
        (session.fetchWithin statement delay from? left made run).2.withNotes
          (statement :: notes)) := by
  have hnoting : (session.noting.execute statement from? (run.withNotes notes).world).1 =
    (session.execute statement from? run.world).1 := rfl
  cases hanswer : (session.execute statement from? run.world).1 with
  | ok page =>
    rw [fetchWithin_of_ok hanswer, fetchWithin_of_ok (hnoting.trans hanswer)]
    rfl
  | error fault =>
    rw [fetchWithin_of_fault hanswer (hlast fault hanswer),
      fetchWithin_of_fault (hnoting.trans hanswer) (hlast fault hanswer)]
    rfl

/-- A fetch executes its statement, at least once, and no other one. -/
theorem exists_fetchWithin_noting (left made : Nat) (run : Run σ) (notes : List Statement) :
    ∃ n, session.noting.fetchWithin statement delay from? left made (run.withNotes notes) =
      ((session.fetchWithin statement delay from? left made run).1,
        (session.fetchWithin statement delay from? left made run).2.withNotes
          (List.replicate (n + 1) statement ++ notes)) := by
  induction left generalizing made run notes with
  | zero => exact ⟨0, fetchWithin_noting_of_last _ _ _ _ (fun _ _ _ => rfl) made notes⟩
  | succ left ih =>
    by_cases h : ∃ fault, (session.execute statement from? run.world).1 = .error fault ∧
        fault.isTransient = true
    · obtain ⟨fault, hanswer, hfault⟩ := h
      have hnoting : (session.noting.execute statement from? (run.withNotes notes).world).1 =
        .error fault := hanswer
      obtain ⟨n, hn⟩ := ih (made + 1)
        (session.rest delay (session.attempt statement from? run).2) (statement :: notes)
      have hnotes : List.replicate (n + 2) statement ++ notes =
          List.replicate (n + 1) statement ++ statement :: notes := by
        rw [List.replicate_succ', List.append_assoc, List.singleton_append]
      rw [fetchWithin_of_transient hanswer hfault, fetchWithin_of_transient hnoting hfault]
      exact ⟨n + 1, hnotes ▸ hn⟩
    · have hlast (fault : ExecutionFault)
          (hanswer : (session.execute statement from? run.world).1 = .error fault)
          (hfault : fault.isTransient = true) : left + 1 = 0 := absurd ⟨fault, hanswer, hfault⟩ h
      exact ⟨0, fetchWithin_noting_of_last _ _ _ _ hlast made notes⟩

end Session

/-- Fetching pages executes one statement, at least once, and no other one. -/
theorem Scan.exists_pull_noting {session : Session σ} {retry : RetryPolicy} {statement : Statement}
    {limit : Nat} {from? : Option Bytes} {run after : Run σ} {answer : Except Failure Scan.Stage}
    (h : pull session retry statement limit from? run = some (answer, after))
    (notes : List Statement) :
    ∃ n, pull session.noting retry statement limit from? (run.withNotes notes) =
      some (answer, after.withNotes (List.replicate (n + 1) statement ++ notes)) := by
  induction limit generalizing from? run notes with
  | zero => cases h
  | succ limit ih =>
    obtain ⟨n, hn⟩ : ∃ n, session.noting.fetch retry statement from? (run.withNotes notes) =
        ((session.fetch retry statement from? run).1,
          (session.fetch retry statement from? run).2.withNotes
            (List.replicate (n + 1) statement ++ notes)) :=
      session.exists_fetchWithin_noting statement retry.delay from? (retry.maxAttempts - 1) 0 run
        notes
    rcases hfetch : session.fetch retry statement from? run with
      ⟨failure | ⟨_ | ⟨row, rows⟩, continuation⟩, fetched⟩ <;> rw [hfetch] at hn
    · cases (pull_of_error hfetch).symm.trans h
      exact ⟨n, pull_of_error hn⟩
    · cases continuation with
      | none =>
        cases (pull_of_last hfetch).symm.trans h
        exact ⟨n, pull_of_last hn⟩
      | some continuation =>
        -- The executions that follow an empty page come on top of those before it.
        rw [pull_of_empty hfetch] at h
        obtain ⟨m, hm⟩ := ih h (List.replicate (n + 1) statement ++ notes)
        refine ⟨m + (n + 1), (pull_of_empty hn).trans (hm.trans ?_)⟩
        rw [← List.append_assoc, List.replicate_append_replicate, Nat.add_right_comm]
    · cases (pull_of_row hfetch).symm.trans h
      exact ⟨n, pull_of_row hn⟩

/-! ### The stages before the first page -/

namespace Cluster

variable {cluster : Cluster ω ι}

theorem connect_noting (target : Target) (notes : List Statement) (world : ω) :
    cluster.noting.connect target (notes, world) =
      ((cluster.connect target world).1, notes, (cluster.connect target world).2) := rfl

theorem run_noting (target : Target) (notes : List Statement) (world : ω) (cache : Cache ι) :
    Checkout.run cluster.noting.connect target (notes, world) cache =
      ((Checkout.run cluster.connect target world cache).1,
        (notes, (Checkout.run cluster.connect target world cache).2.1),
        (Checkout.run cluster.connect target world cache).2.2) := by
  simp only [Checkout.run, connect_noting]
  cases cache.find? target with
  | some connection => rfl
  | none => rcases cluster.connect target world with ⟨causes | connection, after⟩ <;> rfl

/-- Connecting makes no notes. -/
theorem reach_noting (keyspace : String) (endpoints : List String) (fault : ConnectionFault)
    (notes : List Statement) (world : ω) (cache : Cache ι) :
    reach cluster.noting.connect keyspace endpoints fault (notes, world) cache =
      ((reach cluster.connect keyspace endpoints fault world cache).1,
        (notes, (reach cluster.connect keyspace endpoints fault world cache).2.1),
        (reach cluster.connect keyspace endpoints fault world cache).2.2) := by
  induction endpoints generalizing fault world cache with
  | nil => rfl
  | cons endpoint endpoints ih =>
    simp only [reach, run_noting]
    rcases Checkout.run cluster.connect ⟨endpoint, keyspace⟩ world cache with
      ⟨causes | connection, after, kept⟩
    · exact ih (.refused causes) after kept
    · rfl

theorem acquire_noting {keyspace : String} {candidates : List String} {world after : ω}
    {cache kept : Cache ι} {result : Except Failure ι}
    (h : acquire cluster.connect keyspace candidates world cache = (result, after, kept))
    (notes : List Statement) :
    acquire cluster.noting.connect keyspace candidates (notes, world) cache =
      (result, (notes, after), kept) := by
  simp only [acquire, reach_noting] at h ⊢
  rcases hreach : reach cluster.connect keyspace candidates .noReplicas world cache with
    ⟨causes | connection, reached, cached⟩ <;> rw [hreach] at h <;> cases h <;> rfl

end Cluster

/-- A replica of a split accepts a connection and tells the columns of the table of a job. -/
structure Services.Finds (services : Services ω ι) (job : Job) (split : Split)
    (before : Shared ω ι) (connection : ι) (table : Table) (after : Shared ω ι) : Prop where
  answers : ∃ world,
    Cluster.acquire services.cluster.connect job.keyspace
        (Endpoint.ordered job.localAddresses split.replicas) before.world before.cache =
      (.ok connection, world, after.cache) ∧
    services.cluster.describe job.keyspace job.table world = (.ok table, after.world)
  tally_eq : after.tally = before.tally

section Finds

variable {services : Services ω ι} {job : Job} {split : Split} {before after : Shared ω ι}
  {connection : ι} {table : Table}

theorem Services.Finds.noting (h : services.Finds job split before connection table after)
    (notes : List Statement) :
    services.noting.Finds job split (before.withNotes notes) connection table
      (after.withNotes notes) := by
  obtain ⟨world, hacquire, hdescribe⟩ := h.answers
  refine ⟨⟨(notes, world), Cluster.acquire_noting hacquire notes, ?_⟩, h.tally_eq⟩
  simp only [Services.noting, Cluster.noting, hdescribe]
  rfl

end Finds

namespace Reader

/-- What an answer to opening a reader, and the statements that it executed, come to: it failed
before anything was executed, there was nothing to execute, or one statement was executed, perhaps
several times. -/
inductive Reaches :
    Except Failure (Reader ι) → List Statement → Except Failure (Option Statement) → Prop where
  | failure (failure : Failure) : Reaches (.error failure) [] (.error failure)
  | nothing (reader : Reader ι) (h : reader.hasNext = false) : Reaches (.ok reader) [] (.ok none)
  | statement (answer : Except Failure (Reader ι)) (statement : Statement)
    {executed : List Statement} (hne : executed ≠ []) (hall : ∀ other ∈ executed, other = statement) :
    Reaches answer executed (.ok (some statement))

/-- Opening comes to one thing only. -/
theorem Reaches.unique {answer : Except Failure (Reader ι)} {executed : List Statement}
    {first second : Except Failure (Option Statement)} (h : Reaches answer executed first)
    (h' : Reaches answer executed second) : first = second := by
  cases h with
  | failure failure =>
    cases h' with
    | failure => rfl
    | statement _ _ hne => exact absurd rfl hne
  | nothing reader =>
    cases h' with
    | nothing => rfl
    | statement _ _ hne => exact absurd rfl hne
  | statement _ statement hne hall =>
    cases h' with
    | failure => exact absurd rfl hne
    | nothing => exact absurd rfl hne
    | statement _ other _ hall' =>
      obtain ⟨executed, hmem⟩ := List.exists_mem_of_ne_nil _ hne
      rw [← hall executed hmem, hall' executed hmem]

/-! ### Opening -/

section Start

variable {services : Services ω ι} {job job' : Job} {split : Split} {partitioner : Partitioner}
  {connection : ι} {table : Table} {keys : KeyLayout} {before after : Shared ω ι}

/-- The reader of a statement, before its first page is fetched. -/
def unopened (services : Services ω ι) (job : Job) (split : Split) (partitioner : Partitioner)
    (connection : ι) (table : Table) (keys : KeyLayout) (statement : Option Statement) : Reader ι where
  job := job
  split := split
  partitioner := partitioner
  keys := keys
  connection := connection
  scan := { statement, layout := RowLayout.ofTable keys table job.isWanted, retry := services.retry }

/-- The stages before the first page lead to what the statement of the trimmed job is. -/
theorem prepare_of_finds (hsettle : settle job = .ok partitioner)
    (hfinds : services.Finds job split before connection table after)
    (hkeys : table.keys = .ok keys) {result : Except Failure (Option Statement)}
    (hresult : (Template.ofJob services.filters job.normalised keys table).statement? job.lookup
      keys.shape partitioner split = result) :
    prepare services job split before =
      (result.map (unopened services job.normalised split partitioner connection table keys),
        after) := by
  obtain ⟨world, hacquire, hdescribe⟩ := hfinds.answers
  have hassemble : assemble services job.normalised split partitioner connection table =
      result.map (unopened services job.normalised split partitioner connection table keys) := by
    rw [assemble_of_keys hkeys, ← hresult]
    rfl
  simp only [prepare, hsettle, hacquire, hdescribe, hassemble, ← hfinds.tally_eq]

theorem start_of_prepare_error {failure : Failure}
    (h : prepare services job split before = (.error failure, after)) (limit : Nat) :
    Reader.start services limit job split before =
      some (.error failure, { after with tally := after.tally.addFailure }) := by
  simp only [Reader.start, h]

theorem start_of_nothing
    (h : prepare services job split before =
      (.ok (unopened services job' split partitioner connection table keys none), after))
    (limit : Nat) :
    Reader.start services limit job split before =
      some (.ok { unopened services job' split partitioner connection table keys none with
          scan := ⟨none, RowLayout.ofTable keys table job'.isWanted, services.retry, .exhausted,
            {}⟩ },
        { after with tally := after.tally.addScan.addEmptyLookup }) := by
  simp only [Reader.start, h]
  rfl

/-- If there is a statement, opening fetches pages until one has a row. -/
theorem start_of_statement {statement : Statement}
    (h : prepare services job split before =
      (.ok (unopened services job' split partitioner connection table keys (some statement)),
        after)) (limit : Nat) :
    Reader.start services limit job split before =
      (Scan.pull (services.cluster.session connection) services.retry statement limit none
        ⟨after.world, after.tally.addScan, {}⟩).map fun (result, run) =>
          (result.map fun stage =>
              { unopened services job' split partitioner connection table keys (some statement) with
                scan := ⟨some statement, RowLayout.ofTable keys table job'.isWanted,
                  services.retry, stage, run.stats⟩ },
            ⟨run.world, after.cache, run.tally⟩) := by
  simp only [Reader.start, h, Scan.start, unopened]
  rcases Scan.pull (services.cluster.session connection) services.retry statement limit none
    ⟨after.world, after.tally.addScan, {}⟩ with _ | ⟨failure | stage, run⟩ <;> rfl

/-- **Opening a reader executes the statement of the trimmed job for the split, and no other one.**
If there is none, or no answer to what it is, nothing is executed. -/
theorem start_reaches (hsettle : settle job = .ok partitioner)
    (hfinds : services.Finds job split before connection table after)
    (hkeys : table.keys = .ok keys) {limit : Nat} {answer : Except Failure (Reader ι)}
    {opened : Shared ω ι}
    (hstart : Reader.start services limit job split before = some (answer, opened)) :
    ∃ executed, Reader.start services.noting limit job split (before.withNotes []) =
        some (answer, opened.withNotes executed) ∧
      Reaches answer executed
        ((Template.ofJob services.filters job.normalised keys table).statement? job.lookup
          keys.shape partitioner split) := by
  cases hresult : (Template.ofJob services.filters job.normalised keys table).statement? job.lookup
      keys.shape partitioner split with
  | error failure =>
    have hprepare := prepare_of_finds hsettle hfinds hkeys hresult
    have hnoting := prepare_of_finds hsettle (hfinds.noting []) hkeys hresult
    cases (start_of_prepare_error hprepare limit).symm.trans hstart
    exact ⟨[], start_of_prepare_error hnoting limit, .failure failure⟩
  | ok statement? =>
    have hprepare := prepare_of_finds hsettle hfinds hkeys hresult
    have hnoting := prepare_of_finds hsettle (hfinds.noting []) hkeys hresult
    cases statement? with
    | none =>
      cases (start_of_nothing hprepare limit).symm.trans hstart
      exact ⟨[], start_of_nothing hnoting limit, .nothing _ rfl⟩
    | some statement =>
      rw [start_of_statement hprepare, Option.map_eq_some_iff] at hstart
      obtain ⟨⟨result, run⟩, hpull, hopened⟩ := hstart
      cases hopened
      obtain ⟨n, hn⟩ := Scan.exists_pull_noting hpull []
      rw [List.append_nil] at hn
      refine ⟨List.replicate (n + 1) statement, ?_, .statement _ statement ?_ ?_⟩
      · exact (start_of_statement hnoting limit).trans (congrArg (Option.map _) hn)
      · exact List.cons_ne_nil _ _
      · exact fun _ => List.eq_of_mem_replicate

/-- Opening has a result if the first page has rows or is the last one, or if there is none to
fetch. -/
theorem start_isSome (hsettle : settle job = .ok partitioner)
    (hfinds : services.Finds job split before connection table after)
    (hkeys : table.keys = .ok keys)
    (hpage : ∀ statement, (Template.ofJob services.filters job.normalised keys table).statement?
        job.lookup keys.shape partitioner split = .ok (some statement) →
      ∃ page, ((services.cluster.session connection).execute statement none after.world).1 =
        .ok page ∧ (page.rows = [] → page.continuation = none)) (limit : Nat) :
    (Reader.start services (limit + 1) job split before).isSome = true := by
  cases hresult : (Template.ofJob services.filters job.normalised keys table).statement? job.lookup
      keys.shape partitioner split with
  | error failure =>
    rw [start_of_prepare_error (prepare_of_finds hsettle hfinds hkeys hresult)]
    rfl
  | ok statement? =>
    have hprepare := prepare_of_finds hsettle hfinds hkeys hresult
    cases statement? with
    | none =>
      rw [start_of_nothing hprepare]
      rfl
    | some statement =>
      obtain ⟨⟨rows, continuation⟩, hexecute, hlast⟩ := hpage statement hresult
      let session : Session ω := services.cluster.session connection
      let run : Run ω := ⟨after.world, after.tally.addScan, {}⟩
      have hfetch : session.fetch services.retry statement none run =
          (.ok ⟨rows, continuation⟩, (session.attempt statement none run).2.addPage) :=
        Session.fetchWithin_of_ok hexecute
      rw [start_of_statement hprepare, Option.isSome_map]
      cases rows with
      | nil =>
        cases hlast rfl
        exact congrArg Option.isSome (Scan.pull_of_last hfetch)
      | cons row rows => exact congrArg Option.isSome (Scan.pull_of_row hfetch)

end Start

end Reader

end RingScan
