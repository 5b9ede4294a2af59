import RingScan.Proofs.Memory.Pages
import RingScan.Proofs.Reader.Balance
import RingScan.Proofs.Reader.Drain

/-!
# Rows by a loop and rows by a stream

The rows of a reader can be taken in a loop, which asks before every row whether there is something
to report, or as a stream, which never asks and ends where there is no row or with the first
failure.  A reader that has told no failure yet gives the same records and the same failure either
way, after the same executions: what it announces is what the next call answers, and the call with
which only the stream finds that there is no row changes nothing.

## Main definitions

* `Reader.loop`: takes rows as long as there is something to report, up to the first failure.
* `Reader.Reached`: a reader that has answered nothing but records since it was opened.

## Main statements

* `Reader.stream_eq_loop`: the stream of a reader that has told no failure.
* `Reader.stream_of_reached`: the stream of every reader that can be reached.
-/

namespace RingScan

/-! ### Scans that have told no failure -/

namespace Scan

variable {σ : Type} {session : Session σ} {limit : ℕ} {scan : Scan} {world : σ} {tally : Tally}

variable (session limit world tally) in
/-- A scan that has told no failure and announces nothing has no row. -/
theorem FailsByIo.next_of_not_hasNext (h : scan.FailsByIo false) (hnone : scan.hasNext = false) :
    ∃ after, scan.next session limit world tally = some ⟨.ok none, after, world, tally⟩ := by
  obtain ⟨statement, layout, retry, stage, stats⟩ := scan
  cases stage with
  | unstarted | exhausted => exact ⟨_, rfl⟩
  | buffered => cases hnone
  | failed owed =>
    cases owed with
    | none => cases h
    | some => cases hnone

/-- What a scan announces is a record or a failure of an execution, after which it announces nothing
any more. -/
theorem FailsByIo.next_of_hasNext (h : scan.FailsByIo false) (hnext : scan.hasNext = true)
    {outcome : Outcome σ (Except Failure (Option Record))}
    (houtcome : scan.next session limit world tally = some outcome) :
    (∃ record, outcome.answer = .ok (some record)) ∨
      ∃ failure, outcome.answer = .error failure ∧ failure.isIo = true ∧
        outcome.scan.hasNext = false := by
  obtain ⟨statement, layout, retry, stage, stats⟩ := scan
  cases stage with
  | unstarted | exhausted => cases hnext
  | failed owed =>
    cases owed with
    | none => cases hnext
    | some failure =>
      cases houtcome
      exact .inr ⟨failure, rfl, Eq.symm h, rfl⟩
  | buffered row rows continuation =>
    cases rows with
    | cons =>
      cases houtcome
      exact .inl ⟨_, rfl⟩
    | nil =>
      simp only [next] at houtcome
      split at houtcome <;> cases houtcome
      exact .inl ⟨_, rfl⟩

end Scan

/-! ### Changes that a session does not see -/

/-- A change of the world that cannot be told from the answers of a session. -/
structure Paged.Unseen {σ : Type} {session : Session σ} {statement : Statement}
    {pages : List (List Cells)} (paged : Paged session statement pages) (world world' : σ) : Prop where
  meets : ∀ {faults}, paged.Meets world faults → paged.Meets world' faults
  log_eq : paged.log world' = paged.log world
  clock_eq : paged.clock world' = paged.clock world

namespace Paged

variable {σ : Type} {session : Session σ} {statement : Statement} {pages : List (List Cells)}
  {paged : Paged session statement pages} {faults : Schedule} {origin world world' : σ}

theorem Traced.unseen {delay m : ℕ} (h : paged.Traced faults delay origin m world)
    (hunseen : paged.Unseen world world') : paged.Traced faults delay origin m world' :=
  ⟨hunseen.log_eq.trans h.log_eq, hunseen.meets h.meets⟩

/-- What is still to come does not depend on what a session does not see. -/
theorem Standing.unseen {retry : RetryPolicy} {total : ℕ} {failure? : Option Failure}
    {rows : List Cells} {stage : Scan.Stage}
    (h : paged.Standing faults origin retry total failure? rows stage world)
    (hunseen : paged.Unseen world world') :
    paged.Standing faults origin retry total failure? rows stage world' := by
  cases h with
  | buffered hi hcount hready hdue hcourse htotal =>
    exact .buffered hi hcount
      ⟨hready.toTraced.unseen hunseen, hunseen.clock_eq.trans hready.clock_eq⟩ hdue hcourse htotal
  | exhausted hnone htraced => exact .exhausted hnone (htraced.unseen hunseen)
  | owed hsome htraced => exact .owed hsome (htraced.unseen hunseen)

end Paged

namespace Reader

variable {ω ι : Type}

/-! ### Loops -/

/-- What a loop has taken and leaves behind. -/
structure Looped (ω ι : Type) where
  /-- The records. -/
  records : List Record
  /-- The failure that ended the loop, if any. -/
  failure? : Option Failure
  /-- The reader after the loop. -/
  reader : Reader ι
  /-- What all readers share after the loop. -/
  shared : Shared ω ι

/-- A record that was taken before. -/
def Looped.after (record : Record) (looped : Looped ω ι) : Looped ω ι :=
  { looped with records := record :: looped.records }

/-- The items of a stream with the same records and the same failure. -/
def Looped.items (looped : Looped ω ι) : List (Except Failure Record) :=
  looped.records.map .ok ++ looped.failure?.toList.map .error

/-- Takes the next row as long as there is something to report and no failure has been told, at most
`count` times. -/
def loop (services : Services ω ι) (limit : ℕ) :
    ℕ → Reader ι → Shared ω ι → Option (Looped ω ι)
  | 0, _, _ => none
  | count + 1, reader, shared =>
    if reader.hasNext then
      match reader.next services limit shared with
      | none => none
      | some (.ok record, reader, shared) =>
        (loop services limit count reader shared).map (.after record)
      | some (.error failure, reader, shared) => some ⟨[], some failure, reader, shared⟩
    else some ⟨[], none, reader, shared⟩

variable {services : Services ω ι} {limit : ℕ} {reader reader' : Reader ι}
  {shared shared' : Shared ω ι}

theorem loop_of_not_hasNext (h : reader.hasNext = false) (count : ℕ) (shared : Shared ω ι) :
    reader.loop services limit (count + 1) shared = some ⟨[], none, reader, shared⟩ := by
  simp only [loop, h, Bool.false_eq_true, if_false]

theorem loop_of_record {record : Record} (h : reader.hasNext = true)
    (hnext : reader.next services limit shared = some (.ok record, reader', shared')) (count : ℕ) :
    reader.loop services limit (count + 1) shared =
      (reader'.loop services limit count shared').map (.after record) := by
  simp only [loop, h, if_true, hnext]

theorem loop_of_failure {failure : Failure} (h : reader.hasNext = true)
    (hnext : reader.next services limit shared = some (.error failure, reader', shared'))
    (count : ℕ) :
    reader.loop services limit (count + 1) shared = some ⟨[], some failure, reader', shared'⟩ := by
  simp only [loop, h, if_true, hnext]

/-- A loop that ends does so with more rows allowed, too. -/
theorem loop_mono {count more : ℕ} {looped : Looped ω ι} (hmore : count ≤ more)
    (h : reader.loop services limit count shared = some looped) :
    reader.loop services limit more shared = some looped := by
  induction count generalizing reader shared looped more with
  | zero => cases h
  | succ count ih =>
    obtain ⟨more, rfl⟩ : ∃ n, more = n + 1 := ⟨more - 1, by omega⟩
    have hle : count ≤ more := Nat.le_of_succ_le_succ hmore
    cases hhas : reader.hasNext with
    | false => rwa [loop_of_not_hasNext hhas] at h ⊢
    | true =>
      rcases hnext : reader.next services limit shared with _ | ⟨failure | record, first, between⟩
      · simp only [loop, hhas, if_true, hnext] at h
        cases h
      · rwa [loop_of_failure hhas hnext] at h ⊢
      · rw [loop_of_record hhas hnext, Option.map_eq_some_iff] at h ⊢
        obtain ⟨rest, hrest, rfl⟩ := h
        exact ⟨rest, ih hle hrest, rfl⟩

/-- A loop ends where draining a reader ends, or before. -/
theorem exists_loop_of_drain {count : ℕ}
    {drained : List (Except Failure Record) × Reader ι × Shared ω ι}
    (h : reader.drain services limit count shared = some drained) :
    ∃ looped, reader.loop services limit count shared = some looped := by
  induction count generalizing reader shared drained with
  | zero => cases h
  | succ count ih =>
    cases hhas : reader.hasNext with
    | false => exact ⟨_, loop_of_not_hasNext hhas count shared⟩
    | true =>
      rcases hnext : reader.next services limit shared with _ | ⟨failure | record, first, between⟩
      · simp only [drain, hhas, if_true, hnext] at h
        cases h
      · exact ⟨_, loop_of_failure hhas hnext count⟩
      · rw [drain_of_next hhas hnext] at h
        obtain ⟨rest, hrest, -⟩ := Option.map_eq_some_iff.1 h
        obtain ⟨looped, hloop⟩ := ih hrest
        exact ⟨_, by rw [loop_of_record hhas hnext, hloop, Option.map_some]⟩

/-! ### One call -/

theorem next_of_take_record {record : Record}
    (h : reader.take services limit shared = some (.ok (some record), reader', shared')) :
    reader.next services limit shared = some (.ok record, reader', shared') := by
  rw [next, h]

theorem next_of_take_failure {failure : Failure}
    (h : reader.take services limit shared = some (.error failure, reader', shared')) :
    reader.next services limit shared = some (.error failure, reader', shared') := by
  rw [next, h]

variable (services) in
/-- The next row of a reader that has told no failure: what is announced is a record or a failure of
an execution, and otherwise nothing happens. -/
theorem take_cases (h : reader.scan.FailsByIo false) (limit : ℕ) (shared : Shared ω ι) :
    (reader.hasNext = false ∧ ∃ after, reader.take services limit shared =
      some (.ok none, after, shared)) ∨
    (reader.hasNext = true ∧ reader.take services limit shared = none) ∨
    (reader.hasNext = true ∧ ∃ record after shared', reader.take services limit shared =
      some (.ok (some record), after, shared') ∧ after.scan.FailsByIo false) ∨
    (reader.hasNext = true ∧ ∃ failure after shared', reader.take services limit shared =
      some (.error failure, after, shared') ∧ failure.isIo = true ∧ after.hasNext = false) := by
  rcases hhas : reader.hasNext with _ | _
  · obtain ⟨after, hnext⟩ := h.next_of_not_hasNext (services.cluster.session reader.connection)
      limit shared.world shared.tally hhas
    exact .inl ⟨rfl, { reader with scan := after }, by
      rw [take, hnext]
      rfl⟩
  · refine .inr ?_
    rcases hnext : reader.scan.next (services.cluster.session reader.connection) limit shared.world
        shared.tally with _ | outcome
    · exact .inl ⟨rfl, by rw [take, hnext, Option.map_none]⟩
    · have hafter := Scan.next_failsByIo hnext h
      obtain ⟨answer, scan, world, tally⟩ := outcome
      have htake : reader.take services limit shared =
          some (answer, { reader with scan }, { shared with world, tally }) := by
        rw [take, hnext]
        rfl
      refine .inr ?_
      rcases h.next_of_hasNext hhas hnext with ⟨record, rfl⟩ | ⟨failure, rfl, hio, hlast⟩
      · exact .inl ⟨rfl, record, _, _, htake, hafter⟩
      · exact .inr ⟨rfl, failure, _, _, htake, hio, hlast⟩

/-- The stream of a reader that has told no failure has the records and the failure of its loop, and
makes the same executions. -/
theorem stream_eq_loop (h : reader.scan.FailsByIo false) (count : ℕ) (shared : Shared ω ι) :
    reader.stream services limit count shared =
        (reader.loop services limit count shared).map fun looped =>
          (looped.items, looped.shared) := by
  induction count generalizing reader shared with
  | zero => rfl
  | succ count ih =>
    rcases take_cases services h limit shared with ⟨hhas, after, htake⟩ |
      ⟨hhas, htake⟩ | ⟨hhas, record, after, shared', htake, hafter⟩ |
      ⟨hhas, failure, after, shared', htake, -, -⟩
    · rw [loop_of_not_hasNext hhas, stream, htake]
      rfl
    · rw [stream, htake, loop, if_pos hhas, next, htake]
      rfl
    · rw [loop_of_record hhas (next_of_take_record htake), stream, htake, Option.map_map]
      simp only [ih hafter, Option.map_map]
      rfl
    · rw [loop_of_failure hhas (next_of_take_failure htake), stream, htake]
      rfl

/-- A loop ends where nothing is announced any more, and if a failure has ended it, then that of an
execution. -/
theorem loop_ends (h : reader.scan.FailsByIo false) {count : ℕ} {looped : Looped ω ι}
    (hloop : reader.loop services limit count shared = some looped) :
    looped.reader.hasNext = false ∧
      ∀ failure, looped.failure? = some failure → failure.isIo = true := by
  induction count generalizing reader shared looped with
  | zero => cases hloop
  | succ count ih =>
    rcases take_cases services h limit shared with ⟨hhas, after, htake⟩ |
      ⟨hhas, htake⟩ | ⟨hhas, record, after, shared', htake, hafter⟩ |
      ⟨hhas, failure, after, shared', htake, hio, hlast⟩
    · rw [loop_of_not_hasNext hhas] at hloop
      cases hloop
      exact ⟨hhas, nofun⟩
    · rw [loop, if_pos hhas, next, htake] at hloop
      cases hloop
    · rw [loop_of_record hhas (next_of_take_record htake)] at hloop
      obtain ⟨rest, hrest, rfl⟩ := Option.map_eq_some_iff.1 hloop
      obtain ⟨hend, hfailure⟩ := ih hafter hrest
      exact ⟨hend, hfailure⟩
    · rw [loop_of_failure hhas (next_of_take_failure htake)] at hloop
      cases hloop
      exact ⟨hlast, fun other heq => Option.some.inj heq ▸ hio⟩

/-! ### Readers that can be reached -/

/-- A reader that has answered nothing but records since it was opened, and what it shares.  Between
two calls others may count, keep connections, and change the world as `between` allows. -/
inductive Reached (services : Services ω ι) (limit : ℕ) (job : Job) (split : Split)
    (before : Shared ω ι) (between : ω → ω → Prop) : Reader ι → Shared ω ι → Prop
  | opened {reader : Reader ι} {shared : Shared ω ι}
      (hstart : Reader.start services limit job split before = some (.ok reader, shared)) :
      Reached services limit job split before between reader shared
  | record {reader reader' : Reader ι} {shared shared' : Shared ω ι} {record : Record}
      (h : Reached services limit job split before between reader shared)
      (hnext : reader.next services limit shared = some (.ok record, reader', shared')) :
      Reached services limit job split before between reader' shared'
  | others {reader : Reader ι} {shared later : Shared ω ι}
      (h : Reached services limit job split before between reader shared)
      (hbetween : between shared.world later.world) :
      Reached services limit job split before between reader later

variable {job : Job} {split : Split} {before : Shared ω ι} {between : ω → ω → Prop}

/-- A reader that can be reached has told no failure. -/
theorem Reached.failsByIo (h : Reached services limit job split before between reader shared) :
    reader.scan.FailsByIo false := by
  induction h with
  | opened hstart =>
    obtain ⟨hfresh, -⟩ := isFresh_prepare services job split before
    rcases start_cases hstart with ⟨failure, -, -, hanswer, -⟩ |
      ⟨unopened, prepared, outcome, hprepare, hscan, hanswer, -⟩
    · cases hanswer
    · rw [hprepare] at hfresh
      obtain ⟨-, hcount, -⟩ := Scan.start_posts hfresh.1 hscan
      obtain ⟨failure | _, scan, world, tally⟩ := outcome
      · cases hanswer
      · cases hanswer
        exact Scan.failsByIo_of_failureCount hcount
  | record _ hnext ih => exact (next_gives hnext).failsByIo false ih
  | others _ _ ih => exact ih

/-- A reader without a statement has nothing to report. -/
theorem Reached.stage_eq (h : Reached services limit job split before between reader shared)
    {unopened : Reader ι} {prepared : Shared ω ι}
    (hprepare : prepare services job split before = (.ok unopened, prepared))
    (hstatement : unopened.scan.statement = none) : reader.scan.stage = .exhausted := by
  obtain ⟨hfresh, -⟩ := isFresh_prepare services job split before
  rw [hprepare] at hfresh
  obtain ⟨job', split', partitioner, keys, connection, ⟨statement, layout, retry, stage, stats⟩⟩ :=
    unopened
  obtain ⟨rfl, rfl⟩ : statement = none ∧ stage = .unstarted := ⟨hstatement, hfresh.1⟩
  induction h with
  | opened hstart =>
    simp only [Reader.start, hprepare, Scan.start, continued] at hstart
    cases hstart
    rfl
  | @record reader _ shared _ _ _ hnext ih =>
    obtain ⟨job, split, partitioner, keys, connection, ⟨statement, layout, retry, stage, stats⟩⟩ :=
      reader
    obtain rfl : stage = .exhausted := ih
    cases hnext
  | others _ _ ih => exact ih

/-- A reader that can be reached has some rows, and perhaps a failure, of its pages to come. -/
theorem Reached.standing (h : Reached services limit job split before between reader shared)
    {unopened : Reader ι} {prepared : Shared ω ι}
    (hprepare : prepare services job split before = (.ok unopened, prepared))
    {statement : Statement} {pages : List (List Cells)} {faults : Schedule}
    {paged : Paged (services.cluster.session unopened.connection) statement pages}
    (hstatement : unopened.scan.statement = some statement)
    (hmeets : paged.Meets prepared.world faults) (hlimit : pages.length < limit)
    (hunseen : ∀ world world', between world world' → paged.Unseen world world') :
    ∃ total failure? rows stage stats,
      reader = { unopened with scan := { unopened.scan with stage, stats } } ∧
      paged.Standing faults prepared.world unopened.scan.retry total failure? rows stage
        shared.world := by
  obtain ⟨hfresh, -⟩ := isFresh_prepare services job split before
  rw [hprepare] at hfresh
  obtain ⟨job', split', partitioner, keys, connection, ⟨statement', layout, retry, stage, stats⟩⟩ :=
    unopened
  obtain ⟨rfl, rfl⟩ : statement' = some statement ∧ stage = .unstarted := ⟨hstatement, hfresh.1⟩
  induction h with
  | opened hstart =>
    obtain ⟨got, made, failure?, hcourse⟩ :=
      Schedule.exists_course (show 0 < max 1 retry.maxAttempts by omega) faults
        (max 1 pages.length)
    obtain ⟨answer, stage, stats', world, tally, hscan, hbegun⟩ :=
      Paged.start_course layout stats prepared.tally.addScan hlimit hmeets hcourse
    simp only [Reader.start, hprepare, hscan, continued] at hstart
    generalize Paged.rowsFrom pages 0 got = rows at hbegun
    cases hbegun with
    | refused => cases hstart
    | accepted hstanding =>
      cases hstart
      exact ⟨made, failure?, _, stage, stats', rfl, hstanding⟩
  | @record reader _ shared _ record _ hnext ih =>
    obtain ⟨total, failure?, rows, stage, stats, rfl, hstanding⟩ := ih
    cases rows with
    | nil => cases hstanding <;> cases hnext
    | cons row rows =>
      obtain ⟨stage', stats', world, tally, hrow, hrest⟩ :=
        Paged.next_row layout stats shared.tally hlimit hstanding
      rw [next_of_record hrow] at hnext
      cases hnext
      exact ⟨total, failure?, rows, stage', stats', rfl, hrest⟩
  | others _ hbetween ih =>
    obtain ⟨total, failure?, rows, stage, stats, rfl, hstanding⟩ := ih
    exact ⟨total, failure?, rows, stage, stats, rfl, hstanding.unseen (hunseen _ _ hbetween)⟩

/-- The loop of a reader that can be reached ends. -/
theorem Reached.exists_loop (h : Reached services limit job split before between reader shared)
    {unopened : Reader ι} {prepared : Shared ω ι}
    (hprepare : prepare services job split before = (.ok unopened, prepared))
    {statement : Statement} {pages : List (List Cells)} {faults : Schedule}
    {paged : Paged (services.cluster.session unopened.connection) statement pages}
    (hstatement : unopened.scan.statement = some statement)
    (hmeets : paged.Meets prepared.world faults) (hlimit : pages.length < limit)
    (hunseen : ∀ world world', between world world' → paged.Unseen world world') :
    ∃ enough looped, ∀ count, enough ≤ count →
      reader.loop services limit count shared = some looped := by
  obtain ⟨total, failure?, rows, stage, stats, rfl, hstanding⟩ :=
    h.standing hprepare hstatement hmeets hlimit hunseen
  obtain ⟨job', split', partitioner, keys, connection, ⟨statement', layout, retry, _, _⟩⟩ :=
    unopened
  obtain rfl : statement' = some statement := hstatement
  obtain ⟨rest, drained, hdrain, -⟩ := drain_standing hlimit hstanding
    (Nat.lt_succ_self (rows.length + failure?.toList.length)) job' split' partitioner keys layout
    stats shared.cache shared.tally
  obtain ⟨looped, hloop⟩ := exists_loop_of_drain hdrain
  exact ⟨_, looped, fun count hcount => loop_mono hcount hloop⟩

/-- **Reading in a loop and reading by a stream agree.** Let a reader have answered nothing but
records since it was opened, whatever its session has answered and others have done.  Its stream has
the records that the loop returns, then the failure that ends the loop, if any, and nothing more; it
executes and counts what the loop does, and has no result only where the loop has none.  The loop
ends where nothing is announced any more, and the failure is one of an execution.  If there is
nothing to execute, the loop ends at once, and if the session serves pages, it ends under every
schedule of faults. -/
theorem stream_of_reached (h : Reached services limit job split before between reader shared) :
    (∀ count later, reader.stream services limit count later =
      (reader.loop services limit count later).map fun looped =>
        (looped.records.map .ok ++ looped.failure?.toList.map .error, looped.shared)) ∧
    (∀ count later looped, reader.loop services limit count later = some looped →
      looped.reader.hasNext = false ∧
        ∀ failure, looped.failure? = some failure → ∃ attempts fault, failure = .io attempts fault) ∧
    ∀ unopened prepared, prepare services job split before = (.ok unopened, prepared) →
      (unopened.scan.statement = none → ∀ count later,
        reader.loop services limit (count + 1) later = some ⟨[], none, reader, later⟩) ∧
      ∀ statement pages faults
        (paged : Paged (services.cluster.session unopened.connection) statement pages),
        unopened.scan.statement = some statement → paged.Meets prepared.world faults →
        pages.length < limit → (∀ world world', between world world' → paged.Unseen world world') →
        ∃ enough looped, ∀ count, enough ≤ count →
          reader.loop services limit count shared = some looped := by
  refine ⟨fun count later => stream_eq_loop h.failsByIo count later,
    fun count later looped hloop => ?_, fun unopened prepared hprepare => ⟨fun hnone => ?_, ?_⟩⟩
  · obtain ⟨hend, hio⟩ := loop_ends h.failsByIo hloop
    refine ⟨hend, fun failure hfailure => ?_⟩
    have hisIo := hio failure hfailure
    cases failure with
    | io attempts fault => exact ⟨attempts, fault, rfl⟩
    | configuration | metadata | connection | encoding | exhausted | aborted => cases hisIo
  · have hhas : reader.hasNext = false := by
      rw [hasNext, Scan.hasNext, h.stage_eq hprepare hnone]
    exact loop_of_not_hasNext hhas
  · intro statement pages faults paged hstatement hmeets hlimit hunseen
    exact h.exists_loop hprepare hstatement hmeets hlimit hunseen

/-- One row has been taken, and the page behind the next one cannot be fetched. -/
theorem stream_of_reached_owed :
    let column : Column := { name := "k", type := .int }
    let row (b : UInt8) : Cells := .ofList [("k", some [b])]
    let fault : ExecutionFault := .other ⟨"lost", []⟩
    let node : Memory.Node :=
      { store := .fixed [[row 1, row 2], [row 3]], faults := [none, some fault] }
    let world : Memory.World := ⟨{}, node, .ok ⟨[column], [], [column]⟩⟩
    let services : Services Memory.World ℕ := { cluster := Memory.cluster }
    let job : Job := { keyspace := "ks", table := "t" }
    let split : Split := ⟨.long 0, .long 1, ["a"]⟩
    ∃ reader shared later, Reached services 3 job split { world } Eq reader shared ∧
      reader.stream services 3 3 shared =
        some ([.ok ⟨row 2, ∅⟩, .error (.io 1 fault)], later) ∧
      ∃ enough looped, ∀ count, enough ≤ count →
        reader.loop services 3 count shared = some looped := by
  intro column row fault node world services job split
  have hrun : ((Reader.start services 3 job split { world }).bind fun opened =>
      opened.1.toOption.bind fun reader => (reader.next services 3 opened.2).bind fun taken =>
        (taken.2.1.loop services 3 3 taken.2.2).map fun looped =>
          (taken.1, looped.records, looped.failure?)) =
      some (.ok ⟨row 1, ∅⟩, [⟨row 2, ∅⟩], some (.io 1 fault)) := by decide
  obtain ⟨⟨failure | first, opened⟩, hstart, hrest⟩ := Option.bind_eq_some_iff.1 hrun
  · cases hrest
  change (first.next services 3 opened).bind _ = _ at hrest
  obtain ⟨⟨answer, reader, shared⟩, hnext, hrest⟩ := Option.bind_eq_some_iff.1 hrest
  obtain ⟨looped, hloop, heq⟩ := Option.map_eq_some_iff.1 hrest
  obtain ⟨rfl, htaken⟩ := Prod.mk.inj heq
  obtain ⟨hrecords, hfailure⟩ := Prod.mk.inj htaken
  have hreached : Reached services 3 job split { world } Eq reader shared :=
    .record (.opened hstart) hnext
  obtain ⟨hstream, -, hfinite⟩ := stream_of_reached hreached
  have hprepared :
      (prepare services job split { world }).1.map (·.scan.statement.isSome) = .ok true ∧
        (prepare services job split { world }).2.world.node = node := by decide
  rcases hprepare : prepare services job split { world } with ⟨failure | unopened, prepared⟩ <;>
    rw [hprepare] at hprepared
  · cases hprepared.1
  obtain ⟨hsome, hnode⟩ : unopened.scan.statement.isSome = true ∧ prepared.world.node = node :=
    ⟨Except.ok.inj hprepared.1, hprepared.2⟩
  obtain ⟨statement, hstatement⟩ := Option.isSome_iff_exists.1 hsome
  have hserves := Memory.Store.serves_fixed [[row 1, row 2], [row 3]] statement
  have hends := (hfinite unopened prepared hprepare).2 statement _
    (fun n => (node.faults[n]?).join)
    (Memory.World.paged hserves prepared.world.network prepared.world.table unopened.connection)
    hstatement
    ⟨⟨rfl, rfl⟩, by rw [hnode], fun n => by rw [hnode]; rfl⟩ (by decide)
    (fun world world' h => h ▸ ⟨id, rfl, rfl⟩)
  refine ⟨reader, shared, looped.shared, hreached, ?_, hends⟩
  rw [hstream 3 shared, hloop, Option.map_some, hrecords, hfailure]
  rfl

end Reader

end RingScan
