import RingScan.Proofs.Scan.Calls

/-!
# Scans in registers

A scan can be kept in registers that are set one by one: a phase, the rows of a page that are left,
the place where the next page begins and a failure that is owed.  A fetch gives up after the rows
are gone and before the phase says so, and a page is accepted before its rows are known to suffice.
Between two calls the registers are nevertheless those of a scan that has come to one of its stages:
the scan and its registers answer the same to all calls, in step with each other.

## Main definitions

* `Scan.Machine`: a scan kept in registers, with the world and the counters.
* `Scan.Machine.start`, `Scan.Machine.next`, `Scan.Machine.hasNext`: its calls.
* `Scan.machine`: the registers of a scan.
* `Scan.Sound`: what holds of a scan between two calls.

## Main statements

* `Scan.start_machine`, `Scan.next_machine`: one call of a scan and of its registers.
* `Scan.follow_machine`: a scan and its registers stay in step.
-/

namespace RingScan.Scan

/-! ### Machines -/

/-- What a machine says about itself. -/
inductive Phase where
  /-- Nothing has been executed. -/
  | unstarted
  /-- A page is being fetched. -/
  | fetching
  /-- There is a row. -/
  | buffered
  /-- There are no more rows. -/
  | exhausted
  /-- A page could not be fetched. -/
  | failed
  deriving DecidableEq, Repr

/-- The phase is a last one. -/
def Phase.IsFinal (phase : Phase) : Prop :=
  phase = .exhausted ∨ phase = .failed

instance (phase : Phase) : Decidable phase.IsFinal :=
  inferInstanceAs (Decidable (_ ∨ _))

/-- A scan kept in registers, with the world and the counters. -/
structure Machine (σ : Type) where
  /-- The statement, if there is anything to execute. -/
  statement : Option Statement
  /-- Which columns of a row go where. -/
  layout : RowLayout
  /-- How often a statement is tried. -/
  retry : RetryPolicy
  /-- What the machine says about itself. -/
  phase : Phase
  /-- The rows of a page that are left. -/
  rows : List Cells
  /-- Where the next page begins. -/
  continuation : Option Bytes
  /-- A failure to be told by the next call. -/
  owed : Option Failure
  /-- The world and the counters. -/
  run : Run σ

namespace Machine

variable {σ : Type} (session : Session σ)

/-- A machine that has not been started. -/
def initial (statement : Option Statement) (layout : RowLayout) (retry : RetryPolicy) (world : σ)
    (tally : Tally) : Machine σ :=
  ⟨statement, layout, retry, .unstarted, [], none, none, ⟨world, tally, {}⟩⟩

/-- There are no more rows, unless the phase is a last one. -/
def finish (machine : Machine σ) : Machine σ :=
  if machine.phase.IsFinal then machine
  else { machine with phase := .exhausted, continuation := none }

/-- Puts the rows of a page behind those that are left. -/
def accept (machine : Machine σ) (page : Page) : Machine σ :=
  let rows := machine.rows ++ page.rows
  { machine with
    rows, continuation := page.continuation
    phase := if rows.isEmpty then machine.phase else .buffered }

/-- Fetches a page.  A failure drops the place where the next page begins. -/
def execute (from? : Option Bytes) (machine : Machine σ) : Except Failure Page × Machine σ :=
  match machine.statement with
  | none => (.ok {}, machine)
  | some statement =>
    match session.fetch machine.retry statement from? machine.run with
    | (.ok page, run) => (.ok page, { machine with phase := .fetching, run })
    | (.error failure, run) =>
      (.error failure, { machine with phase := .failed, continuation := none, run })

/-- Follows continuations until there is a row or none is left. -/
def fill : ℕ → Machine σ → Option (Except Failure Unit × Machine σ)
  | limit, machine =>
    if machine.rows.isEmpty then
      match machine.continuation with
      | none => some (.ok (), machine.finish)
      | some continuation =>
        match limit with
        | 0 => none
        | limit + 1 =>
          match execute session (some continuation) { machine with continuation := none } with
          | (.ok page, machine) => fill limit (machine.accept page)
          | (.error failure, machine) => some (.error failure, machine)
    else some (.ok (), { machine with phase := .buffered })

/-- Fetches a page and, as long as there is no row, the pages after it. -/
def advance (limit : ℕ) (from? : Option Bytes) (machine : Machine σ) :
    Option (Except Failure Unit × Machine σ) :=
  match machine.execute session from? with
  | (.ok page, machine) => fill session limit (machine.accept page)
  | (.error failure, machine) => some (.error failure, machine)

/-- Fetches the first page. -/
def start (limit : ℕ) (machine : Machine σ) : Option (Except Failure Unit × Machine σ) :=
  if machine.phase = .unstarted then
    if machine.statement.isNone then
      some (.ok (),
        { machine with run.tally := machine.run.tally.addEmptyLookup }.finish)
    else
      match limit with
      | 0 => none
      | limit + 1 => machine.advance session limit none
  else some (.ok (), machine)

/-- There is a row or a failure to report. -/
def hasNext (machine : Machine σ) : Bool :=
  !machine.rows.isEmpty || machine.owed.isSome

/-- A record that is handed out while a failure of the fetch behind it is owed. -/
def handing (record : Record) :
    Except Failure Unit × Machine σ → Except Failure (Option Record) × Machine σ
  | (.ok (), machine) => (.ok (some record), machine)
  | (.error failure, machine) => (.ok (some record), { machine with owed := some failure })

/-- Takes the next row. -/
def next (limit : ℕ) (machine : Machine σ) :
    Option (Except Failure (Option Record) × Machine σ) :=
  match machine.owed with
  | some failure => some (.error failure, { machine with owed := none })
  | none =>
    if machine.phase = .failed then some (.error .aborted, machine)
    else
      match machine.rows with
      | [] => some (.ok none, machine.finish)
      | row :: rows =>
        let record := machine.layout.record row
        let machine := { machine with rows, run := machine.run.addRow record.byteCount }
        if rows.isEmpty then (machine.fill session limit).map (handing record)
        else some (.ok (some record), machine)

/-- Makes a call. -/
def call (machine : Machine σ) : Call → Option (Answer × Machine σ)
  | .start limit => (machine.start session limit).map (Prod.map .started id)
  | .next limit => (machine.next session limit).map (Prod.map .taken id)

/-- Makes calls one after the other. -/
def follow : List Call → Machine σ → Option (List Answer × Machine σ)
  | [], machine => some ([], machine)
  | call :: calls, machine =>
    (machine.call session call).bind fun (answer, first) =>
      (follow calls first).map fun (answers, after) => (answer :: answers, after)

end Machine

/-! ### The registers of a scan -/

namespace Stage

/-- What a scan that has come to a stage says about itself. -/
def phase : Stage → Phase
  | unstarted => .unstarted
  | buffered .. => .buffered
  | exhausted => .exhausted
  | failed _ => .failed

/-- The rows of a page that are left. -/
def rows : Stage → List Cells
  | buffered row rows _ => row :: rows
  | unstarted | exhausted | failed _ => []

/-- Where the next page begins. -/
def continuation : Stage → Option Bytes
  | buffered _ _ continuation => continuation
  | unstarted | exhausted | failed _ => none

/-- A failure to be told by the next call. -/
def owed : Stage → Option Failure
  | failed owed => owed
  | unstarted | exhausted | buffered .. => none

end Stage

variable {σ : Type}

/-- The registers of a scan. -/
def machine (scan : Scan) (run : Run σ) : Machine σ :=
  ⟨scan.statement, scan.layout, scan.retry, scan.stage.phase, scan.stage.rows,
    scan.stage.continuation, scan.stage.owed, run⟩

/-- The world and the counters after a call. -/
def Outcome.run {α : Type} (outcome : Outcome σ α) : Run σ :=
  ⟨outcome.world, outcome.tally, outcome.scan.stats⟩

/-- The answer to a call and the registers after it. -/
def Outcome.machine {α : Type} (outcome : Outcome σ α) : α × Machine σ :=
  (outcome.answer, outcome.scan.machine outcome.run)

/-! ### One call -/

section Step

variable {session : Session σ} {limit : ℕ} {statement : Statement} {scan : Scan}

namespace Machine

/-- Filling goes on with the page at the continuation. -/
theorem fill_succ {machine : Machine σ} {continuation : Bytes} (hrows : machine.rows = [])
    (hcontinuation : machine.continuation = some continuation) :
    machine.fill session (limit + 1) =
      advance session limit (some continuation) { machine with continuation := none } := by
  rw [fill, hrows, if_pos List.isEmpty_nil, hcontinuation]
  rfl

theorem fill_of_row {machine : Machine σ} (hrows : machine.rows ≠ []) :
    machine.fill session limit = some (.ok (), { machine with phase := .buffered }) := by
  rw [fill, if_neg (mt List.isEmpty_iff.1 hrows)]

theorem fill_of_last {machine : Machine σ} (hrows : machine.rows = [])
    (hcontinuation : machine.continuation = none) :
    machine.fill session limit = some (.ok (), machine.finish) := by
  rw [fill, hrows, if_pos List.isEmpty_nil, hcontinuation]

theorem fill_zero {machine : Machine σ} {continuation : Bytes} (hrows : machine.rows = [])
    (hcontinuation : machine.continuation = some continuation) : machine.fill session 0 = none := by
  rw [fill, hrows, if_pos List.isEmpty_nil, hcontinuation]

theorem next_of_last {machine : Machine σ} {row : Cells} (howed : machine.owed = none)
    (hphase : machine.phase ≠ .failed) (hrows : machine.rows = [row]) :
    machine.next session limit =
      (fill session limit { machine with
        rows := [], run := machine.run.addRow (machine.layout.record row).byteCount }).map
          (handing (machine.layout.record row)) := by
  rw [next, howed, if_neg hphase, hrows]
  rfl

end Machine

/-- The registers of a scan that has fetched pages. -/
def landed (scan : Scan) : Except Failure Stage × Run σ → Except Failure Unit × Machine σ
  | (.ok stage, run) => (.ok (), machine { scan with stage } run)
  | (.error failure, run) => (.error failure, machine { scan with stage := .failed none } run)

private theorem advance_of_fill (hstatement : scan.statement = some statement)
    (hfill : ∀ continuation run, Machine.fill session limit
        ⟨scan.statement, scan.layout, scan.retry, .fetching, [], some continuation, none, run⟩ =
      (pull session scan.retry statement limit (some continuation) run).map scan.landed)
    (phase : Phase) (from? : Option Bytes) (run : Run σ) :
    Machine.advance session limit from?
        ⟨scan.statement, scan.layout, scan.retry, phase, [], none, none, run⟩ =
      (pull session scan.retry statement (limit + 1) from? run).map scan.landed := by
  obtain ⟨_, layout, retry, stage, stats⟩ := scan
  obtain rfl : _ = some statement := hstatement
  rcases hfetch : session.fetch retry statement from? run with
    ⟨failure | ⟨_ | ⟨row, rows⟩, continuation⟩, fetched⟩
  · rw [pull_of_error hfetch]
    simp only [Machine.advance, Machine.execute, hfetch]
    rfl
  · simp only [Machine.advance, Machine.execute, hfetch]
    cases continuation with
    | none =>
      rw [pull_of_last hfetch, Machine.fill_of_last rfl rfl]
      rfl
    | some continuation =>
      rw [pull_of_empty hfetch]
      exact hfill continuation fetched
  · rw [pull_of_row hfetch]
    simp only [Machine.advance, Machine.execute, hfetch]
    rw [Machine.fill_of_row (List.cons_ne_nil row rows)]
    rfl

/-- Without rows and without a continuation, a machine advances as far as pages can be pulled. -/
theorem advance_eq_pull (hstatement : scan.statement = some statement) (phase : Phase)
    (from? : Option Bytes) (run : Run σ) :
    Machine.advance session limit from?
        ⟨scan.statement, scan.layout, scan.retry, phase, [], none, none, run⟩ =
      (pull session scan.retry statement (limit + 1) from? run).map scan.landed := by
  induction limit generalizing phase from? run with
  | zero =>
    exact advance_of_fill hstatement (fun _ _ => Machine.fill_zero rfl rfl) phase from? run
  | succ limit ih =>
    refine advance_of_fill hstatement (fun continuation run => ?_) phase from? run
    rw [Machine.fill_succ rfl rfl]
    exact ih .fetching (some continuation) run

/-- A machine without rows fills up as far as pages can be pulled. -/
theorem fill_eq_pull (hstatement : scan.statement = some statement) (phase : Phase)
    (continuation : Bytes) (run : Run σ) :
    Machine.fill session limit
        ⟨scan.statement, scan.layout, scan.retry, phase, [], some continuation, none, run⟩ =
      (pull session scan.retry statement limit (some continuation) run).map scan.landed := by
  cases limit with
  | zero => exact Machine.fill_zero rfl rfl
  | succ limit =>
    rw [Machine.fill_succ rfl rfl]
    exact advance_eq_pull hstatement phase (some continuation) run

/-- A machine starts as its scan does. -/
theorem start_machine (scan : Scan) (world : σ) (tally : Tally) :
    (scan.machine ⟨world, tally, scan.stats⟩).start session limit =
      (scan.start session limit world tally).map Outcome.machine := by
  obtain ⟨statement, layout, retry, stage, stats⟩ := scan
  cases stage with
  | buffered | exhausted | failed => cases statement <;> rfl
  | unstarted =>
    cases statement with
    | none => rfl
    | some statement =>
      cases limit with
      | zero => rfl
      | succ limit =>
        let scan : Scan := ⟨some statement, layout, retry, .unstarted, stats⟩
        have hstatement : scan.statement = some statement := rfl
        have hadvance : Machine.start session (limit + 1) (scan.machine ⟨world, tally, stats⟩) =
            (pull session retry statement (limit + 1) none ⟨world, tally, stats⟩).map scan.landed :=
          advance_eq_pull hstatement .unstarted none ⟨world, tally, stats⟩
        refine hadvance.trans ?_
        simp only [start]
        cases pull session retry statement (limit + 1) none ⟨world, tally, stats⟩ with
        | none => rfl
        | some result =>
          obtain ⟨answer, run⟩ := result
          cases answer <;> rfl

/-- What holds of a scan between two calls: without a statement there are no rows, and a failure
that is owed is one of an execution. -/
structure Sound (scan : Scan) : Prop where
  rows_eq_nil : scan.statement = none → scan.stage.rows = []
  isIo_of_owed : ∀ failure, scan.stage.owed = some failure → failure.isIo = true

/-- A scan with a row has a statement. -/
theorem Sound.exists_statement (hsound : scan.Sound) (h : scan.stage.rows ≠ []) :
    ∃ statement, scan.statement = some statement :=
  Option.ne_none_iff_exists'.1 (mt hsound.rows_eq_nil h)

/-- A machine takes the next row as its scan does. -/
theorem next_machine (hsound : scan.Sound) (world : σ) (tally : Tally) :
    (scan.machine ⟨world, tally, scan.stats⟩).next session limit =
      (scan.next session limit world tally).map Outcome.machine := by
  obtain ⟨statement, layout, retry, stage, stats⟩ := scan
  cases stage with
  | unstarted | exhausted => rfl
  | failed owed => cases owed <;> rfl
  | buffered row rows continuation =>
    cases rows with
    | cons => rfl
    | nil =>
      have hphase : Phase.buffered ≠ .failed := nofun
      refine (Machine.next_of_last rfl hphase rfl).trans ?_
      let record := layout.record row
      let run : Run σ := Run.addRow ⟨world, tally, stats⟩ record.byteCount
      cases continuation with
      | none =>
        rw [Machine.fill_of_last rfl rfl]
        cases statement <;> rfl
      | some continuation =>
        let stage : Stage := .buffered row [] (some continuation)
        obtain ⟨statement, rfl⟩ := hsound.exists_statement (List.cons_ne_nil row [])
        have hstatement : Scan.statement ⟨some statement, layout, retry, stage, stats⟩ =
          some statement := rfl
        have hfill : Machine.fill session limit
            ⟨some statement, layout, retry, .buffered, [], some continuation, none, run⟩ = _ :=
          fill_eq_pull hstatement .buffered continuation run
        refine (congrArg (Option.map (Machine.handing record)) hfill).trans ?_
        simp only [next, refill]
        cases pull session retry statement limit (some continuation) run with
        | none => rfl
        | some result =>
          obtain ⟨answer, after⟩ := result
          cases answer <;> rfl

theorem Sound.of_owed (hrows : scan.statement = none → scan.stage.rows = [])
    (howed : scan.stage.owed = none) : scan.Sound :=
  ⟨hrows, fun failure h => absurd (h.symm.trans howed) (Option.some_ne_none failure)⟩

theorem sound_initial (statement : Option Statement) (layout : RowLayout) (retry : RetryPolicy) :
    Sound { statement, layout, retry } :=
  .of_owed (fun _ => rfl) rfl

private theorem owed_eq_none {stage : Stage} (h : stage.hasFailed = false) : stage.owed = none := by
  cases stage with
  | failed => cases h
  | unstarted | buffered | exhausted => rfl

theorem Sound.start (hsound : scan.Sound) {world : σ} {tally : Tally}
    {outcome : Outcome σ (Except Failure Unit)}
    (h : scan.start session limit world tally = some outcome) : outcome.scan.Sound := by
  obtain ⟨statement, layout, retry, stage, stats⟩ := scan
  cases stage with
  | buffered | exhausted | failed => cases statement <;> cases h <;> exact hsound
  | unstarted =>
    cases statement with
    | none =>
      cases h
      exact .of_owed (fun _ => rfl) rfl
    | some statement =>
      simp only [Scan.start] at h
      split at h
      · cases h
      · rename_i stage run hpull
        cases h
        exact .of_owed (fun hnone => absurd hnone (Option.some_ne_none statement))
          (owed_eq_none ((pull_fetches hpull).2 stage rfl))
      · cases h
        exact .of_owed (fun _ => rfl) rfl

theorem Sound.next (hsound : scan.Sound) {world : σ} {tally : Tally}
    {outcome : Outcome σ (Except Failure (Option Record))}
    (h : scan.next session limit world tally = some outcome) : outcome.scan.Sound := by
  obtain ⟨statement, layout, retry, stage, stats⟩ := scan
  cases stage with
  | unstarted | exhausted =>
    cases h
    exact .of_owed (fun _ => rfl) rfl
  | failed owed =>
    cases owed <;> cases h <;> exact .of_owed (fun _ => rfl) rfl
  | buffered row rows continuation =>
    have hstatement : statement ≠ none := fun hnone =>
      absurd (hsound.rows_eq_nil hnone) (List.cons_ne_nil row rows)
    cases rows with
    | cons =>
      cases h
      exact .of_owed (fun hnone => absurd hnone hstatement) rfl
    | nil =>
      simp only [Scan.next] at h
      split at h
      · cases h
      · rename_i stage run hrefill
        cases h
        have howes := refill_owesIo hrefill
        refine ⟨fun hnone => absurd hnone hstatement, fun failure hfailure => ?_⟩
        cases stage with
        | failed owed =>
          obtain rfl : owed = some failure := hfailure
          exact howes.symm
        | unstarted | buffered | exhausted => cases hfailure

theorem Sound.call (hsound : scan.Sound) {call : Call} {world : σ} {tally : Tally}
    {outcome : Outcome σ Answer} (h : scan.call session call world tally = some outcome) :
    outcome.scan.Sound := by
  cases call with
  | start limit =>
    obtain ⟨first, hfirst, rfl⟩ := Option.map_eq_some_iff.1 h
    exact hsound.start hfirst
  | next limit =>
    obtain ⟨first, hfirst, rfl⟩ := Option.map_eq_some_iff.1 h
    exact hsound.next hfirst

/-- A machine answers a call as its scan does. -/
theorem call_machine (hsound : scan.Sound) (call : Call) (world : σ) (tally : Tally) :
    (scan.machine ⟨world, tally, scan.stats⟩).call session call =
      (scan.call session call world tally).map Outcome.machine := by
  cases call with
  | start limit =>
    simp only [Machine.call, Scan.call, start_machine, Option.map_map]
    rfl
  | next limit =>
    simp only [Machine.call, Scan.call, next_machine hsound, Option.map_map]
    rfl

end Step

/-! ### Any calls -/

variable {session : Session σ}

/-- **A scan and its registers stay in step**: they give the same answers to the same calls. -/
theorem follow_machine {calls : List Call} {scan : Scan} (hsound : scan.Sound) (world : σ)
    (tally : Tally) :
    Machine.follow session calls (scan.machine ⟨world, tally, scan.stats⟩) =
      (follow session calls scan world tally).map Outcome.machine := by
  induction calls generalizing scan world tally with
  | nil => rfl
  | cons call calls ih =>
    rw [Machine.follow, follow, call_machine hsound]
    cases hcall : scan.call session call world tally with
    | none => rfl
    | some first =>
      have hfirst := ih (hsound.call hcall) first.world first.tally
      simp only [Option.map_some, Option.bind_some, Outcome.machine, Outcome.run, Option.map_map]
        at hfirst ⊢
      rw [hfirst, Option.map_map]
      rfl

end RingScan.Scan
