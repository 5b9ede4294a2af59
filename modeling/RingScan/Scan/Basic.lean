import RingScan.Row.Record
import RingScan.Scan.Fetch

/-!
# Scans

A scan hands out the rows of a statement one by one.  It keeps the rest of one page, and fetches the
next page as soon as the last row of a page is taken, so whether there is another row is known
without asking the session.  Pages without rows are passed over.

A failure while the next page is fetched is owed to the caller: the row already taken comes first,
then the failure, and after that the scan only says that it failed before.

A session may answer with pages without rows for ever.  A call therefore follows a limited number of
continuations, and has no result when they do not suffice.

## Main definitions

* `Scan.Stage`: how far a scan has come.
* `Scan`: the rows of a statement as records.
* `Scan.start`, `Scan.next`: fetch the first page, and take the next row.
* `Scan.hasNext`: whether the next call has something to report.
-/

namespace RingScan

namespace Scan

/-- How far a scan has come. -/
inductive Stage where
  /-- Nothing has been executed. -/
  | unstarted
  /-- There is a row, and there may be more of its page and of the pages after it. -/
  | buffered (row : Cells) (rows : List Cells) (continuation : Option Bytes)
  /-- There are no more rows. -/
  | exhausted
  /-- A page could not be fetched; the failure may still be owed. -/
  | failed (owed : Option Failure)
  deriving DecidableEq, Repr

end Scan

/-- The rows of a statement as records. -/
structure Scan where
  /-- The statement, if there is anything to execute. -/
  statement : Option Statement
  /-- Which columns of a row go where. -/
  layout : RowLayout
  /-- How often a statement is tried. -/
  retry : RetryPolicy
  /-- How far the scan has come. -/
  stage : Scan.Stage := .unstarted
  /-- What the scan has counted. -/
  stats : Stats := {}
  deriving DecidableEq, Repr

namespace Scan

/-- What a call answers and leaves behind. -/
structure Outcome (σ α : Type) where
  /-- The answer. -/
  answer : α
  /-- The scan after the call. -/
  scan : Scan
  /-- The world after the call. -/
  world : σ
  /-- The shared counters after the call. -/
  tally : Tally

variable {σ : Type} (session : Session σ)

/-- There is a row or a failure to report. -/
def hasNext (scan : Scan) : Bool :=
  match scan.stage with
  | .buffered .. => true
  | .failed (some _) => true
  | _ => false

/-- Fetches pages until one has a row or none is left, and tells how far that took the scan. -/
def pull (retry : RetryPolicy) (statement : Statement) :
    Nat → Option Bytes → Run σ → Option (Except Failure Stage × Run σ)
  | 0, _, _ => none
  | limit + 1, from?, run =>
    match session.fetch retry statement from? run with
    | (.error failure, run) => some (.error failure, run)
    | (.ok ⟨row :: rows, continuation⟩, run) =>
      some (.ok (.buffered row rows continuation), run)
    | (.ok ⟨[], none⟩, run) => some (.ok .exhausted, run)
    | (.ok ⟨[], some continuation⟩, run) => pull retry statement limit (some continuation) run

section Pull

variable {session} {retry : RetryPolicy} {statement : Statement} {limit : Nat}
  {from? : Option Bytes} {run run' : Run σ}

theorem pull_of_error {failure : Failure}
    (h : session.fetch retry statement from? run = (.error failure, run')) :
    pull session retry statement (limit + 1) from? run = some (.error failure, run') := by
  rw [pull, h]

theorem pull_of_row {row : Cells} {rows : List Cells} {continuation : Option Bytes}
    (h : session.fetch retry statement from? run = (.ok ⟨row :: rows, continuation⟩, run')) :
    pull session retry statement (limit + 1) from? run =
      some (.ok (.buffered row rows continuation), run') := by
  rw [pull, h]

theorem pull_of_last (h : session.fetch retry statement from? run = (.ok ⟨[], none⟩, run')) :
    pull session retry statement (limit + 1) from? run = some (.ok .exhausted, run') := by
  rw [pull, h]

/-- A page without rows that is not the last one is passed over. -/
theorem pull_of_empty {continuation : Bytes}
    (h : session.fetch retry statement from? run = (.ok ⟨[], some continuation⟩, run')) :
    pull session retry statement (limit + 1) from? run =
      pull session retry statement limit (some continuation) run' := by
  rw [pull, h]

/-- What holds of pulling pages that ends with the next page, and is kept by a page without rows
that another one follows, holds of pulling pages. -/
theorem pull_induction {motive : Option Bytes → Run σ → Except Failure Stage × Run σ → Prop}
    (error : ∀ {from? run failure after},
      session.fetch retry statement from? run = (.error failure, after) →
      motive from? run (.error failure, after))
    (row : ∀ {from? run row rows continuation after},
      session.fetch retry statement from? run = (.ok ⟨row :: rows, continuation⟩, after) →
      motive from? run (.ok (.buffered row rows continuation), after))
    (last : ∀ {from? run after}, session.fetch retry statement from? run = (.ok ⟨[], none⟩, after) →
      motive from? run (.ok .exhausted, after))
    (empty : ∀ {from? run continuation after result},
      session.fetch retry statement from? run = (.ok ⟨[], some continuation⟩, after) →
      motive (some continuation) after result → motive from? run result)
    {result : Except Failure Stage × Run σ}
    (h : pull session retry statement limit from? run = some result) : motive from? run result := by
  induction limit generalizing from? run with
  | zero => cases h
  | succ limit ih =>
    rcases hfetch : session.fetch retry statement from? run with
      ⟨failure | ⟨_ | ⟨first, others⟩, continuation⟩, fetched⟩
    · cases (pull_of_error hfetch).symm.trans h
      exact error hfetch
    · cases continuation with
      | none =>
        cases (pull_of_last hfetch).symm.trans h
        exact last hfetch
      | some continuation => exact empty hfetch (ih ((pull_of_empty hfetch).symm.trans h))
    · cases (pull_of_row hfetch).symm.trans h
      exact row hfetch

end Pull

/-- The outcome of a call after which the scan has come to `stage`. -/
def outcome {α : Type} (scan : Scan) (stage : Stage) (answer : α) (run : Run σ) : Outcome σ α :=
  ⟨answer, { scan with stage, stats := run.stats }, run.world, run.tally⟩

/-- Fetches the first page.  A scan that has been started is left as it is, and one without a
statement has no rows. -/
def start (limit : Nat) (scan : Scan) (world : σ) (tally : Tally) :
    Option (Outcome σ (Except Failure Unit)) :=
  match scan.stage, scan.statement with
  | .unstarted, none =>
    some ⟨.ok (), { scan with stage := .exhausted }, world, tally.addEmptyLookup⟩
  | .unstarted, some statement =>
    match pull session scan.retry statement limit none ⟨world, tally, scan.stats⟩ with
    | none => none
    | some (.ok stage, run) => some (scan.outcome stage (.ok ()) run)
    | some (.error failure, run) => some (scan.outcome (.failed none) (.error failure) run)
  | _, _ => some ⟨.ok (), scan, world, tally⟩

/-- How far the scan comes when the last row of a page has been taken.  A failure is owed. -/
def refill (limit : Nat) (scan : Scan) (continuation : Option Bytes) (run : Run σ) :
    Option (Stage × Run σ) :=
  match scan.statement, continuation with
  | some statement, some continuation =>
    match pull session scan.retry statement limit (some continuation) run with
    | none => none
    | some (.ok stage, run) => some (stage, run)
    | some (.error failure, run) => some (.failed (some failure), run)
  | _, _ => some (.exhausted, run)

/-- Takes the next row.  There is none when the scan is exhausted, and a scan that was not started
has none either. -/
def next (limit : Nat) (scan : Scan) (world : σ) (tally : Tally) :
    Option (Outcome σ (Except Failure (Option Record))) :=
  match scan.stage with
  | .unstarted => some ⟨.ok none, { scan with stage := .exhausted }, world, tally⟩
  | .exhausted => some ⟨.ok none, scan, world, tally⟩
  | .failed (some failure) =>
    some ⟨.error failure, { scan with stage := .failed none }, world, tally⟩
  | .failed none => some ⟨.error .aborted, scan, world, tally⟩
  | .buffered row rows continuation =>
    let record := scan.layout.record row
    let run := (⟨world, tally, scan.stats⟩ : Run σ).addRow record.byteCount
    match rows with
    | row :: rows => some (scan.outcome (.buffered row rows continuation) (.ok (some record)) run)
    | [] =>
      match scan.refill session limit continuation run with
      | none => none
      | some (stage, run) => some (scan.outcome stage (.ok (some record)) run)

end Scan

end RingScan
