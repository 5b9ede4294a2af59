import RingScan.Memory.Node
import RingScan.Proofs.Scan.Views

/-!
# When the end is told

A scan tells its end by handing out no row.  To say what has been read by then, the session is made
to record its executions and their answers, which changes no answer of the scan.  A scan that is
started before anything else tells the end only after the last page has been received, every
execution having gone on where the page before it ended, and after all rows of these pages have been
handed out.  A scan that is asked for a row before it is started tells the end at once, without
having executed anything, and can not be started any more.

## Main definitions

* `Session.recording`: the same with a record of every execution and its answer.
* `Transcript`: the executions that have read some rows of a statement up to some place.

## Main statements

* `Scan.follow_recording`: recording changes no answer.
* `Scan.follow_end_iff`: when the end is told, everything has been read if and only if the first
  call has started the scan.
-/

namespace RingScan

variable {σ : Type}

/-! ### Records of executions -/

/-- An execution and its answer. -/
structure Exchange where
  /-- The statement. -/
  statement : Statement
  /-- Where it went on. -/
  from? : Option Bytes
  /-- The answer. -/
  answer : Except ExecutionFault Page

/-- The session with a record of every execution, the last one first. -/
def Session.recording (session : Session σ) : Session (List Exchange × σ) where
  execute statement from? world :=
    let (answer, after) := session.execute statement from? world.2
    (answer, ⟨statement, from?, answer⟩ :: world.1, after)
  pause delay world := (world.1, session.pause delay world.2)

/-- The outcome of a call without the record. -/
def Scan.Outcome.unrecorded {α : Type} (outcome : Outcome (List Exchange × σ) α) : Outcome σ α :=
  ⟨outcome.answer, outcome.scan, outcome.world.2, outcome.tally⟩

variable {session : Session σ} {statement : Statement}

/-- A session with a record shows the session without it. -/
theorem Session.shows_recording (session : Session σ) :
    session.recording.Shows Prod.snd session where
  execute_eq _ _ _ := rfl
  pause_eq _ _ := rfl

namespace Scan

/-- **Recording changes no answer**: calls that follow each other are answered the same, and leave
the same scan, world and counters behind. -/
theorem follow_recording (calls : List Call) (scan : Scan) (world : List Exchange × σ)
    (tally : Tally) :
    (follow session.recording calls scan world tally).map Outcome.unrecorded =
      follow session calls scan world.2 tally :=
  session.shows_recording.follow calls scan world tally

end Scan

/-! ### What executions have read -/

/-- Where the reading of a statement stands. -/
inductive Progress where
  /-- There is a page to be fetched. -/
  | going (from? : Option Bytes)
  /-- The last page has been received. -/
  | done

/-- Where the reading of a statement stands after a page with the given continuation. -/
def Progress.after : Option Bytes → Progress
  | some continuation => .going (some continuation)
  | none => .done

/-- The executions that have read some rows of a statement up to some place, the last execution
first.  Each of them has gone on where the last page before it ended, the first ones at the
beginning, and the rows are those of all pages in order. -/
inductive Transcript (statement : Statement) : List Exchange → List Cells → Progress → Prop
  | nil : Transcript statement [] [] (.going none)
  | page {log : List Exchange} {read : List Cells} {from? : Option Bytes}
      (h : Transcript statement log read (.going from?)) (page : Page) :
      Transcript statement (⟨statement, from?, .ok page⟩ :: log) (read ++ page.rows)
        (.after page.continuation)
  | fault {log : List Exchange} {read : List Cells} {from? : Option Bytes}
      (h : Transcript statement log read (.going from?)) (fault : ExecutionFault) :
      Transcript statement (⟨statement, from?, .error fault⟩ :: log) read (.going from?)

variable {from? : Option Bytes} {read : List Cells} {log : List Exchange}

namespace Transcript

theorem ne_nil (h : Transcript statement log read .done) : log ≠ [] := by
  rintro rfl
  cases h

variable {run after : Run (List Exchange × σ)} {page : Page}

theorem attempt_page (h : Transcript statement run.world.1 read (.going from?))
    (hanswer : (session.recording.execute statement from? run.world).1 = .ok page) :
    Transcript statement (session.recording.attempt statement from? run).2.world.1
      (read ++ page.rows) (.after page.continuation) := by
  have hlog : (session.recording.attempt statement from? run).2.world.1 =
      ⟨statement, from?, (session.recording.execute statement from? run.world).1⟩ :: run.world.1 :=
    rfl
  rw [hlog, hanswer]
  exact h.page page

theorem attempt_fault {fault : ExecutionFault}
    (h : Transcript statement run.world.1 read (.going from?))
    (hanswer : (session.recording.execute statement from? run.world).1 = .error fault) :
    Transcript statement (session.recording.attempt statement from? run).2.world.1 read
      (.going from?) := by
  have hlog : (session.recording.attempt statement from? run).2.world.1 =
      ⟨statement, from?, (session.recording.execute statement from? run.world).1⟩ :: run.world.1 :=
    rfl
  rw [hlog, hanswer]
  exact h.fault fault

/-- A page that has been fetched is read behind the pages before it. -/
theorem fetchWithin {delay left made : ℕ} (h : Transcript statement run.world.1 read (.going from?))
    (hfetch : session.recording.fetchWithin statement delay from? left made run =
      (.ok page, after)) :
    Transcript statement after.world.1 (read ++ page.rows) (.after page.continuation) := by
  refine Session.fetchWithin_induction (motive := fun _ _ run result =>
      Transcript statement run.world.1 read (.going from?) → result = (.ok page, after) →
        Transcript statement after.world.1 (read ++ page.rows) (.after page.continuation))
    ?page ?fault ?retry left made run h hfetch
  case page =>
    intro left made run received hanswer h hfetch
    cases hfetch
    exact h.attempt_page hanswer
  case fault =>
    intro left made run fault _ _ _ hfetch
    cases hfetch
  case retry =>
    intro left made run fault result hanswer _ hresult h hfetch
    exact hresult (h.attempt_fault hanswer) hfetch

end Transcript

namespace Scan

/-- The executions of a log have read the rows that have been handed out and those that are left at
a stage, and nothing is left to be fetched when there are no more rows. -/
def Stage.Accounts (statement : Statement) (log : List Exchange) (taken : List Cells) :
    Stage → Prop
  | .unstarted => False
  | .buffered row rows continuation =>
    Transcript statement log (taken ++ row :: rows) (.after continuation)
  | .exhausted => Transcript statement log taken .done
  | .failed _ => True

/-- Pages that are pulled are read behind the pages before them. -/
theorem accounts_of_pull {retry : RetryPolicy} {limit : ℕ} {taken : List Cells} {stage : Stage}
    {run after : Run (List Exchange × σ)}
    (h : Transcript statement run.world.1 taken (.going from?))
    (hpull : pull session.recording retry statement limit from? run = some (.ok stage, after)) :
    stage.Accounts statement after.world.1 taken := by
  refine pull_induction (motive := fun from? run result =>
    Transcript statement run.world.1 taken (.going from?) → result = (.ok stage, after) →
      stage.Accounts statement after.world.1 taken) ?error ?row ?last ?empty hpull h rfl
  case error => exact fun _ _ => nofun
  case row =>
    rintro _ _ _ _ _ _ hfetch h ⟨⟩
    exact h.fetchWithin hfetch
  case last =>
    rintro _ _ _ hfetch h ⟨⟩
    have hread := h.fetchWithin hfetch
    rwa [List.append_nil] at hread
  case empty =>
    intro _ _ _ _ _ hfetch hrest h
    have hread := h.fetchWithin hfetch
    rw [List.append_nil] at hread
    exact hrest hread

/-- The rows that have been handed out account for the answers so far. -/
def Accounts (statement : Statement) (layout : RowLayout) (told : List Answer) (scan : Scan)
    (log : List Exchange) : Prop :=
  scan.statement = some statement ∧ scan.layout = layout ∧
    ∃ taken, scan.stage.Accounts statement log taken ∧
      told.flatMap Answer.records = taken.map layout.record

variable {layout : RowLayout} {scan : Scan} {world : List Exchange × σ} {tally : Tally} {limit : ℕ}
  {told : List Answer}

private theorem records_append (told : List Answer) (answer : Answer) :
    (told ++ [answer]).flatMap Answer.records = told.flatMap Answer.records ++ answer.records := by
  rw [List.flatMap_append, List.flatMap_singleton]

/-- What is fetched behind the last row of a page is read behind it. -/
theorem accounts_of_refill {continuation : Option Bytes} {taken : List Cells} {stage : Stage}
    {run after : Run (List Exchange × σ)} (hstatement : scan.statement = some statement)
    (h : Transcript statement run.world.1 taken (.after continuation))
    (hrefill : scan.refill session.recording limit continuation run = some (stage, after)) :
    stage.Accounts statement after.world.1 taken := by
  cases continuation with
  | none =>
    simp only [refill, hstatement] at hrefill
    cases hrefill
    exact h
  | some continuation =>
    simp only [refill, hstatement] at hrefill
    split at hrefill
    · cases hrefill
    · rename_i hpull
      cases hrefill
      exact accounts_of_pull h hpull
    · cases hrefill
      trivial

theorem accounts_of_next {outcome : Outcome (List Exchange × σ) (Except Failure (Option Record))}
    (haccounts : scan.Accounts statement layout told world.1)
    (h : scan.next session.recording limit world tally = some outcome) :
    outcome.scan.Accounts statement layout (told ++ [.taken outcome.answer]) outcome.world.1 := by
  obtain ⟨_, layout, retry, stage, stats⟩ := scan
  obtain ⟨rfl, rfl, taken, hstage, htold⟩ := haccounts
  cases stage with
  | unstarted => exact hstage.elim
  | exhausted =>
    cases h
    exact ⟨rfl, rfl, taken, hstage, by rw [records_append, htold]; exact List.append_nil _⟩
  | failed owed =>
    cases owed <;> cases h <;>
      exact ⟨rfl, rfl, taken, trivial, by rw [records_append, htold]; exact List.append_nil _⟩
  | buffered row rows continuation =>
    let answer : Answer := .taken (.ok (some (layout.record row)))
    have hrecords : (told ++ [answer]).flatMap Answer.records =
        (taken ++ [row]).map layout.record := by
      rw [records_append, htold, List.map_append]
      rfl
    have htaken : taken ++ row :: rows = taken ++ [row] ++ rows := List.append_cons taken row rows
    rw [Stage.Accounts, htaken] at hstage
    cases rows with
    | cons other rows =>
      cases h
      exact ⟨rfl, rfl, taken ++ [row], hstage, hrecords⟩
    | nil =>
      rw [List.append_nil] at hstage
      simp only [next] at h
      split at h
      · cases h
      · rename_i hrefill
        cases h
        exact ⟨rfl, rfl, taken ++ [row], accounts_of_refill rfl hstage hrefill, hrecords⟩

/-- A scan that has been started accounts for its first pages. -/
theorem accounts_of_start {retry : RetryPolicy} {stats : Stats}
    {outcome : Outcome (List Exchange × σ) (Except Failure Unit)} (hlog : world.1 = [])
    (h : Scan.start session.recording limit ⟨some statement, layout, retry, .unstarted, stats⟩ world
      tally = some outcome) :
    outcome.scan.Accounts statement layout [.started outcome.answer] outcome.world.1 := by
  simp only [Scan.start] at h
  split at h
  · cases h
  · rename_i stage run hpull
    cases h
    have hread : Transcript statement world.1 [] (.going none) := hlog ▸ .nil
    exact ⟨rfl, rfl, [], accounts_of_pull hread hpull, rfl⟩
  · cases h
    exact ⟨rfl, rfl, [], trivial, rfl⟩

/-- A scan that has been started is left as it is by another start. -/
theorem start_of_started {τ : Type} {session : Session τ} {world : τ}
    (h : scan.stage ≠ .unstarted) :
    scan.start session limit world tally = some ⟨.ok (), scan, world, tally⟩ := by
  obtain ⟨statement, layout, retry, stage, stats⟩ := scan
  cases stage with
  | unstarted => exact absurd rfl h
  | buffered | exhausted | failed => cases statement <;> rfl

theorem accounts_of_call {call : Call} {outcome : Outcome (List Exchange × σ) Answer}
    (haccounts : scan.Accounts statement layout told world.1)
    (h : scan.call session.recording call world tally = some outcome) :
    outcome.scan.Accounts statement layout (told ++ [outcome.answer]) outcome.world.1 := by
  cases call with
  | start limit =>
    obtain ⟨first, hfirst, rfl⟩ := Option.map_eq_some_iff.1 h
    obtain ⟨hstatement, hlayout, taken, hstage, htold⟩ := haccounts
    have hstarted : scan.stage ≠ .unstarted := fun hunstarted => by
      rw [hunstarted] at hstage
      exact hstage
    cases (start_of_started hstarted).symm.trans hfirst
    refine ⟨hstatement, hlayout, taken, hstage, ?_⟩
    rw [records_append, htold]
    exact List.append_nil _
  | next limit =>
    obtain ⟨first, hfirst, rfl⟩ := Option.map_eq_some_iff.1 h
    exact accounts_of_next haccounts hfirst

/-! ### The end -/

/-- An exhausted scan stays so, and executes nothing. -/
private theorem exhausted_of_call {call : Call} {outcome : Outcome (List Exchange × σ) Answer}
    (hscan : scan.stage = .exhausted)
    (h : scan.call session.recording call world tally = some outcome) :
    outcome.scan.stage = .exhausted ∧ outcome.world = world := by
  obtain ⟨statement, layout, retry, stage, stats⟩ := scan
  obtain rfl : stage = .exhausted := hscan
  cases call <;> cases statement <;> cases h <;> exact ⟨rfl, rfl⟩

/-- Only a scan that has not been started or is exhausted tells the end. -/
private theorem stage_of_end {ending : Outcome σ (Except Failure (Option Record))} {world : σ}
    (h : scan.next session limit world tally = some ending) (hend : ending.answer = .ok none) :
    scan.stage = .unstarted ∨ scan.stage = .exhausted := by
  obtain ⟨statement, layout, retry, stage, stats⟩ := scan
  cases stage with
  | unstarted => exact .inl rfl
  | exhausted => exact .inr rfl
  | failed owed => cases owed <;> cases h <;> cases hend
  | buffered row rows continuation =>
    cases rows with
    | cons =>
      cases h
      cases hend
    | nil =>
      simp only [next] at h
      split at h
      · cases h
      · cases h
        cases hend

/-- **When the end is told, everything has been read if and only if the scan was started first.**
After some calls a scan with a statement is asked for the next row and tells its end.  If the first
call has started the scan, then the executions have received a last page, each of them having gone
on where the page before it ended, and all rows of these pages have been handed out, in order.
Otherwise the last page has not been received. -/
theorem follow_end_iff {retry : RetryPolicy} {calls : List Call} {world : σ}
    {outcome : Outcome σ (List Answer)} {ending : Outcome σ (Except Failure (Option Record))}
    (hcalls : follow session calls { statement := some statement, layout, retry } world tally =
      some outcome)
    (hnext : outcome.scan.next session limit outcome.world outcome.tally = some ending)
    (hend : ending.answer = .ok none) :
    ∃ log, follow session.recording calls { statement := some statement, layout, retry } ([], world)
        tally = some ⟨outcome.answer, outcome.scan, (log, outcome.world), outcome.tally⟩ ∧
      ((∃ read, Transcript statement log read .done ∧
          outcome.answer.flatMap Answer.records = read.map layout.record) ↔
        ∃ first rest, calls = .start first :: rest) := by
  let scan : Scan := { statement := some statement, layout, retry }
  have hrecording :
      (follow session.recording calls scan ([], world) tally).map Outcome.unrecorded =
        some outcome := (follow_recording calls scan ([], world) tally).trans hcalls
  obtain ⟨⟨answers, after, ⟨log, left⟩, counted⟩, hrecorded, rfl⟩ :=
    Option.map_eq_some_iff.1 hrecording
  refine ⟨log, hrecorded, ?_⟩
  cases calls with
  | nil =>
    cases hrecorded
    exact iff_of_false (fun ⟨read, hread, _⟩ => hread.ne_nil rfl) nofun
  | cons call calls =>
    obtain ⟨first, ⟨told, after, ⟨log, left⟩, counted⟩, hfirst, hrest, houtcome⟩ :=
      follow_cons hrecorded
    cases houtcome
    cases call with
    | next limit =>
      cases hfirst
      have hexhausted : after.stage = .exhausted ∧ log = [] :=
        follow_keeps (motive := fun _ scan world => scan.stage = .exhausted ∧ world.1 = [])
          (fun ⟨hstage, hlog⟩ hcall => by
            obtain ⟨hstill, hworld⟩ := exhausted_of_call hstage hcall
            exact ⟨hstill, hworld ▸ hlog⟩)
          [] ⟨rfl, rfl⟩ hrest
      exact iff_of_false (fun ⟨read, hread, _⟩ => hread.ne_nil hexhausted.2) nofun
    | start limit =>
      obtain ⟨started, hstart, rfl⟩ := Option.map_eq_some_iff.1 hfirst
      obtain ⟨-, -, read, hstage, htold⟩ :=
        follow_keeps (motive := fun told scan world => scan.Accounts statement layout told world.1)
          accounts_of_call [.started started.answer] (accounts_of_start rfl hstart) hrest
      refine iff_of_true ⟨read, ?_, htold⟩ ⟨limit, calls, rfl⟩
      rcases stage_of_end hnext hend with hunstarted | hexhausted
      · rw [show after.stage = .unstarted from hunstarted] at hstage
        exact hstage.elim
      · rw [show after.stage = .exhausted from hexhausted] at hstage
        exact hstage

/-- One row, taken after a start. -/
theorem follow_end_one_row :
    let node : Memory.Node := { store := .fixed [[.ofList [("id", some [1])]]] }
    let calls : List Call := [.start 2, .next 2]
    ∃ outcome ending,
      follow Memory.Node.session calls ⟨some ⟨"", [], 1⟩, ⟨["id"], []⟩, {}, .unstarted, {}⟩ node
        {} = some outcome ∧
      outcome.scan.next Memory.Node.session 2 outcome.world outcome.tally = some ending ∧
      ending.answer = .ok none ∧
      ∃ log read, Transcript ⟨"", [], 1⟩ log read .done ∧
        outcome.answer.flatMap Answer.records = read.map (RowLayout.record ⟨["id"], []⟩) := by
  intro node calls
  have hend : ∃ outcome ending,
      follow Memory.Node.session calls ⟨some ⟨"", [], 1⟩, ⟨["id"], []⟩, {}, .unstarted, {}⟩ node
        {} = some outcome ∧
      outcome.scan.next Memory.Node.session 2 outcome.world outcome.tally = some ending ∧
      ending.answer = .ok none := ⟨_, _, rfl, rfl, rfl⟩
  obtain ⟨outcome, ending, hcalls, hnext, hending⟩ := hend
  obtain ⟨log, -, hiff⟩ := follow_end_iff hcalls hnext hending
  exact ⟨outcome, ending, hcalls, hnext, hending, log, hiff.2 ⟨2, [.next 2], rfl⟩⟩

/-- A scan of one row that is asked for it before it is started tells its end without an execution,
and a start does nothing any more. -/
theorem end_of_unstarted_false :
    let statement : Statement := ⟨"", [], 1⟩
    let scan : Scan := ⟨some statement, ⟨["id"], []⟩, {}, .unstarted, {}⟩
    let node : Memory.Node := { store := .fixed [[.ofList [("id", some [1])]]] }
    ∃ ending, scan.next Memory.Node.session.recording 2 ([], node) {} = some ending ∧
      ending.answer = .ok none ∧ node.store.rowCount = 1 ∧
      (¬ ∃ read, Transcript statement ending.world.1 read .done) ∧
      ending.scan.start Memory.Node.session.recording 2 ending.world ending.tally =
        some ⟨.ok (), ending.scan, ending.world, ending.tally⟩ :=
  ⟨_, rfl, rfl, rfl, fun ⟨_, hread⟩ => hread.ne_nil rfl, rfl⟩

end Scan

end RingScan
