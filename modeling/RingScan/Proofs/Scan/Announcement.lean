import RingScan.Memory.Node
import RingScan.Proofs.Scan.Registers

/-!
# What a scan announces

Who reads rows from a scan asks first whether there is something to report, and is told so without
an execution.  The announcement is right although it is read off registers that are set one by one:
after any calls, whatever the session has answered, the registers agree with each other, what is
announced is a record or a failure of an execution, and once the phase is a last one nothing happens
any more.

A session may answer with pages without rows for ever, and then a call does not return.  This is the
only way in which a request for the next row has no result.

## Main definitions

* `Scan.Barren`: so many pages in a row without rows.
* `Scan.Machine.Truthful`: the registers agree with each other and tell what comes next.

## Main statements

* `Scan.next_announced`: what a scan announces.
* `Scan.Machine.follow_truthful`: after any calls, the registers are truthful.
-/

namespace RingScan.Scan

variable {σ : Type} {session : Session σ}

/-! ### Pages without rows -/

/-- So many pages in a row have no rows and are not the last one. -/
def Barren (session : Session σ) (retry : RetryPolicy) (statement : Statement) :
    ℕ → Option Bytes → Run σ → Prop
  | 0, _, _ => True
  | count + 1, from?, run =>
    ∃ continuation after,
      session.fetch retry statement from? run = (.ok ⟨[], some continuation⟩, after) ∧
      Barren session retry statement count (some continuation) after

/-- Pulling pages has no result only if the pages that may be fetched have no rows. -/
theorem barren_of_pull {retry : RetryPolicy} {statement : Statement} {limit : ℕ}
    {from? : Option Bytes} {run : Run σ}
    (h : pull session retry statement limit from? run = none) :
    Barren session retry statement limit from? run := by
  induction limit generalizing from? run with
  | zero => trivial
  | succ limit ih =>
    rcases hfetch : session.fetch retry statement from? run with
      ⟨failure | ⟨_ | ⟨row, rows⟩, continuation⟩, fetched⟩
    · cases (pull_of_error hfetch).symm.trans h
    · cases continuation with
      | none => cases (pull_of_last hfetch).symm.trans h
      | some continuation =>
        rw [pull_of_empty hfetch] at h
        exact ⟨continuation, fetched, hfetch, ih h⟩
    · cases (pull_of_row hfetch).symm.trans h

/-! ### Truthful registers -/

namespace Machine

/-- The registers agree with each other and tell what the next call answers, and nothing happens
after a last phase. -/
structure Truthful (session : Session σ) (machine : Machine σ) : Prop where
  /-- No fetch is under way. -/
  not_fetching : machine.phase ≠ .fetching
  /-- The phase tells whether there is a row. -/
  buffered_iff : machine.phase = .buffered ↔ machine.rows ≠ []
  /-- Before the first page and after the last one there is nothing left of a page. -/
  bare : machine.phase = .unstarted ∨ machine.phase.IsFinal →
    machine.rows = [] ∧ machine.continuation = none
  /-- Only a failure is owed. -/
  failed_of_owed : machine.owed ≠ none → machine.phase = .failed
  /-- What is announced is a record or a failure of an execution. -/
  hasNext_iff : ∀ limit answer after, machine.next session limit = some (answer, after) →
    (machine.hasNext = true ↔ (∃ record, answer = .ok (some record)) ∨
      ∃ attempts fault, answer = .error (.io attempts fault))
  /-- What is not announced is the end or an earlier failure. -/
  not_hasNext_iff : ∀ limit answer after, machine.next session limit = some (answer, after) →
    (machine.hasNext = false ↔ answer = .ok none ∨ answer = .error .aborted)
  /-- The next call has no result only if it takes the last row of a page and all pages that it may
  fetch after that have no rows. -/
  barren_of_next : ∀ limit, machine.next session limit = none →
    ∃ statement continuation row, machine.statement = some statement ∧
      machine.continuation = some continuation ∧ machine.rows = [row] ∧
      Barren session machine.retry statement limit (some continuation)
        (machine.run.addRow (machine.layout.record row).byteCount)
  /-- In a last phase every call returns, executes nothing and changes neither the phase nor a
  counter. -/
  final : machine.phase.IsFinal → ∀ call, ∃ answer after,
    machine.call session call = some (answer, after) ∧ after.phase = machine.phase ∧
      after.run = machine.run

end Machine

/-- A scan announces records and failures of executions, and nothing else. -/
theorem next_announced {scan : Scan} (hsound : scan.Sound) {limit : ℕ} {world : σ} {tally : Tally}
    {outcome : Outcome σ (Except Failure (Option Record))}
    (h : scan.next session limit world tally = some outcome) :
    scan.hasNext = true ∧ ((∃ record, outcome.answer = .ok (some record)) ∨
        ∃ attempts fault, outcome.answer = .error (.io attempts fault)) ∨
      scan.hasNext = false ∧ (outcome.answer = .ok none ∨ outcome.answer = .error .aborted) := by
  obtain ⟨statement, layout, retry, stage, stats⟩ := scan
  cases stage with
  | unstarted | exhausted =>
    cases h
    exact .inr ⟨rfl, .inl rfl⟩
  | failed owed =>
    cases owed with
    | none =>
      cases h
      exact .inr ⟨rfl, .inr rfl⟩
    | some failure =>
      cases h
      have hio : failure.isIo = true := hsound.isIo_of_owed failure rfl
      cases failure with
      | io attempts fault => exact .inl ⟨rfl, .inr ⟨attempts, fault, rfl⟩⟩
      | configuration | metadata | connection | encoding | exhausted | aborted => cases hio
  | buffered row rows continuation =>
    cases rows with
    | cons =>
      cases h
      exact .inl ⟨rfl, .inl ⟨_, rfl⟩⟩
    | nil =>
      simp only [next] at h
      split at h
      · cases h
      · cases h
        exact .inl ⟨rfl, .inl ⟨_, rfl⟩⟩

private theorem not_announced {answer : Except Failure (Option Record)}
    (h : answer = .ok none ∨ answer = .error .aborted) :
    ¬ ((∃ record, answer = .ok (some record)) ∨
      ∃ attempts fault, answer = .error (.io attempts fault)) := by
  rintro (⟨record, rfl⟩ | ⟨attempts, fault, rfl⟩)
  · rcases h with h | h <;> cases h
  · rcases h with h | h <;> cases h

theorem hasNext_machine (scan : Scan) (run : Run σ) :
    (scan.machine run).hasNext = scan.hasNext := by
  obtain ⟨statement, layout, retry, stage, stats⟩ := scan
  cases stage with
  | failed owed => cases owed <;> rfl
  | unstarted | buffered | exhausted => rfl

/-- In a last phase a call leaves the world and the counters as they are. -/
theorem call_final {scan : Scan} (h : scan.stage.phase.IsFinal) (call : Call) (world : σ)
    (tally : Tally) : ∃ outcome, scan.call session call world tally = some outcome ∧
      outcome.scan.stage.phase = scan.stage.phase ∧ outcome.run = ⟨world, tally, scan.stats⟩ := by
  obtain ⟨statement, layout, retry, stage, stats⟩ := scan
  cases stage with
  | unstarted | buffered => rcases h with h | h <;> cases h
  | exhausted => cases call <;> exact ⟨_, rfl, rfl, rfl⟩
  | failed owed => cases call <;> cases owed <;> exact ⟨_, rfl, rfl, rfl⟩

/-- Taking a row has no result only if it is the last one of a page and the pages that may be
fetched behind it have no rows. -/
theorem barren_of_next {scan : Scan} (hsound : scan.Sound) {limit : ℕ} {world : σ} {tally : Tally}
    (h : scan.next session limit world tally = none) :
    ∃ statement continuation row, scan.statement = some statement ∧
      scan.stage = .buffered row [] (some continuation) ∧
      Barren session scan.retry statement limit (some continuation)
        (Run.addRow ⟨world, tally, scan.stats⟩ (scan.layout.record row).byteCount) := by
  obtain ⟨statement, layout, retry, stage, stats⟩ := scan
  cases stage with
  | unstarted | exhausted => cases h
  | failed owed => cases owed <;> cases h
  | buffered row rows continuation =>
    cases rows with
    | cons => cases h
    | nil =>
      obtain ⟨statement, rfl⟩ := hsound.exists_statement (List.cons_ne_nil row [])
      cases continuation with
      | none => cases h
      | some continuation =>
        refine ⟨statement, continuation, row, rfl, rfl, barren_of_pull ?_⟩
        simp only [next, refill] at h
        split at h
        · rename_i hrefill
          split at hrefill
          · assumption
          · cases hrefill
          · cases hrefill
        · cases h

/-- The registers of a scan are truthful. -/
theorem truthful_machine {scan : Scan} (hsound : scan.Sound) (world : σ) (tally : Tally) :
    (scan.machine ⟨world, tally, scan.stats⟩).Truthful session := by
  have hnext {limit : ℕ} {answer : Except Failure (Option Record)} {after : Machine σ}
      (h : (scan.machine ⟨world, tally, scan.stats⟩).next session limit = some (answer, after)) :
      ∃ outcome, scan.next session limit world tally = some outcome ∧ outcome.answer = answer := by
    rw [next_machine hsound] at h
    obtain ⟨outcome, houtcome, hmachine⟩ := Option.map_eq_some_iff.1 h
    exact ⟨outcome, houtcome, congrArg Prod.fst hmachine⟩
  refine ⟨?_, ?_, ?_, ?_, fun limit answer after h => ?_, fun limit answer after h => ?_,
    fun limit h => ?_, fun hfinal call => ?_⟩
  · show scan.stage.phase ≠ .fetching
    cases scan.stage <;> exact nofun
  · show scan.stage.phase = .buffered ↔ scan.stage.rows ≠ []
    cases scan.stage with
    | buffered row rows continuation => exact iff_of_true rfl (List.cons_ne_nil row rows)
    | unstarted | exhausted | failed => exact iff_of_false nofun fun h => h rfl
  · show scan.stage.phase = .unstarted ∨ scan.stage.phase.IsFinal →
      scan.stage.rows = [] ∧ scan.stage.continuation = none
    cases scan.stage with
    | buffered => rintro (h | h | h) <;> cases h
    | unstarted | exhausted | failed => exact fun _ => ⟨rfl, rfl⟩
  · show scan.stage.owed ≠ none → scan.stage.phase = .failed
    cases scan.stage with
    | failed => exact fun _ => rfl
    | unstarted | buffered | exhausted => exact fun h => absurd rfl h
  · obtain ⟨outcome, houtcome, rfl⟩ := hnext h
    rw [hasNext_machine]
    rcases next_announced hsound houtcome with ⟨htrue, hanswer⟩ | ⟨hfalse, hanswer⟩
    · exact iff_of_true htrue hanswer
    · rw [hfalse]
      exact iff_of_false nofun (not_announced hanswer)
  · obtain ⟨outcome, houtcome, rfl⟩ := hnext h
    rw [hasNext_machine]
    rcases next_announced hsound houtcome with ⟨htrue, hanswer⟩ | ⟨hfalse, hanswer⟩
    · rw [htrue]
      exact iff_of_false nofun fun hquiet => not_announced hquiet hanswer
    · exact iff_of_true hfalse hanswer
  · rw [next_machine hsound, Option.map_eq_none_iff] at h
    obtain ⟨statement, continuation, row, hstatement, hstage, hbarren⟩ := barren_of_next hsound h
    refine ⟨statement, continuation, row, hstatement, ?_, ?_, hbarren⟩
    · exact congrArg Stage.continuation hstage
    · exact congrArg Stage.rows hstage
  · obtain ⟨outcome, houtcome, hphase, hrun⟩ := call_final hfinal call world tally
    refine ⟨outcome.answer, outcome.scan.machine outcome.run, ?_, hphase, hrun⟩
    rw [call_machine hsound, houtcome]
    rfl

/-- **The registers always tell the truth about the next answer.** Whatever a session answers, after
any calls that have returned the registers of a machine agree with each other and tell what the next
call answers, and in a last phase nothing happens any more.  The scan that has taken the same calls
has given the same answers, counted the same and announces the same. -/
theorem Machine.follow_truthful {calls : List Call} {statement : Option Statement}
    {layout : RowLayout} {retry : RetryPolicy} {world : σ} {tally : Tally} {answers : List Answer}
    {after : Machine σ}
    (h : follow session calls (initial statement layout retry world tally) =
      some (answers, after)) :
    after.Truthful session ∧
      ∃ outcome, Scan.follow session calls { statement, layout, retry } world tally = some outcome ∧
        outcome.answer = answers ∧ outcome.run = after.run ∧
        outcome.scan.hasNext = after.hasNext := by
  let scan : Scan := { statement, layout, retry }
  have hsound : scan.Sound := sound_initial statement layout retry
  have hfollow : (Scan.follow session calls scan world tally).map Outcome.machine =
      some (answers, after) := (follow_machine hsound world tally).symm.trans h
  obtain ⟨outcome, houtcome, hmachine⟩ := Option.map_eq_some_iff.1 hfollow
  obtain ⟨rfl, rfl⟩ := Prod.mk.inj hmachine
  have hafter : outcome.scan.Sound :=
    follow_keeps (motive := fun _ scan _ => scan.Sound) (fun hscan hcall => hscan.call hcall) []
      hsound houtcome
  exact ⟨truthful_machine hafter outcome.world outcome.tally, outcome, houtcome, rfl, rfl,
    (hasNext_machine outcome.scan outcome.run).symm⟩

/-- One row has been taken while the page behind it could not be fetched. -/
theorem Machine.follow_truthful_owed :
    let rows : List (List Cells) := [[.ofList [("id", some [1])]], [.ofList [("id", some [2])]]]
    let node : Memory.Node :=
      { store := .fixed rows, faults := [none, some (.other ⟨"down", []⟩)] }
    ∃ answers after,
      follow Memory.Node.session [.start 3, .next 3]
        (initial (some ⟨"", [], 1⟩) ⟨["id"], []⟩ {} node {}) = some (answers, after) ∧
      (after.phase = .failed ∧ after.rows = [] ∧ after.owed ≠ none) ∧
      after.Truthful Memory.Node.session := by
  intro rows node
  have hfollow : ∃ answers after, follow Memory.Node.session [.start 3, .next 3]
        (initial (some ⟨"", [], 1⟩) ⟨["id"], []⟩ {} node {}) = some (answers, after) ∧
      (after.phase = .failed ∧ after.rows = [] ∧ after.owed ≠ none) :=
    ⟨_, _, rfl, rfl, rfl, nofun⟩
  obtain ⟨answers, after, h, hafter⟩ := hfollow
  exact ⟨answers, after, h, hafter, (follow_truthful h).1⟩

end RingScan.Scan
