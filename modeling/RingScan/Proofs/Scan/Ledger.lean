import Mathlib.Algebra.Group.Basic
import RingScan.Scan.Basic

/-!
# What a scan counts

The shared counters and those of a scan are raised in many places: by each execution, before each
further attempt, for each page, row and failure.  A ledger says how often each of these things has
happened since some moment, without an end to its numbers.  The ledger of a call determines what the
call does to both kinds of counters, and in it the executions are balanced: each of them leads to a
page, to a further attempt, or to the failure of the scan.

## Main definitions

* `Ledger`: how often each thing that is counted has happened.
* `Tally.post`, `Stats.post`: the counters after what a ledger says.
* `Ledger.Fits`: the numbers of a ledger are not too large for the shared counters.
* `Ledger.call`: the ledger of a call that hands out given records.
* `Scan.Posts`: calls that count what such a ledger says.
* `Scan.FailsByIo`: a failed scan has told of a failure of an execution, or owes it.

## Main statements

* `Session.fetchWithin_fetches`: a fetch ends with a page or with one failure.
* `Scan.pull_fetches`: so do several fetches.
* `Scan.start_posts`, `Scan.next_posts`: what the calls of a scan count.
* `Scan.next_failsByIo`: a scan fails by nothing but a failure of an execution.
-/

namespace RingScan

/-- How often each thing that is counted has happened. -/
@[ext]
structure Ledger where
  /-- Scans that were begun. -/
  scans : ℕ := 0
  /-- Executions. -/
  executions : ℕ := 0
  /-- Executions after which another attempt was made. -/
  retries : ℕ := 0
  /-- Pages that were received. -/
  pages : ℕ := 0
  /-- Rows that were handed out. -/
  rows : ℕ := 0
  /-- Bytes of the rows that were handed out. -/
  bytes : ℕ := 0
  /-- Scans with nothing to execute. -/
  emptyLookups : ℕ := 0
  /-- Failures. -/
  failures : ℕ := 0
  deriving DecidableEq, Repr

namespace Ledger

instance : Zero Ledger := ⟨{}⟩

/-- Two ledgers as one. -/
instance : Add Ledger where
  add l m :=
    { scans := l.scans + m.scans
      executions := l.executions + m.executions
      retries := l.retries + m.retries
      pages := l.pages + m.pages
      rows := l.rows + m.rows
      bytes := l.bytes + m.bytes
      emptyLookups := l.emptyLookups + m.emptyLookups
      failures := l.failures + m.failures }

theorem zero_def : (0 : Ledger) = {} := rfl

theorem add_def (l m : Ledger) : l + m = ⟨l.scans + m.scans, l.executions + m.executions,
    l.retries + m.retries, l.pages + m.pages, l.rows + m.rows, l.bytes + m.bytes,
    l.emptyLookups + m.emptyLookups, l.failures + m.failures⟩ := rfl

instance : AddCommMonoid Ledger where
  add_assoc l m n := by simp only [add_def, Nat.add_assoc]
  zero_add l := by simp only [add_def, zero_def, Nat.zero_add]
  add_zero l := by simp only [add_def, zero_def, Nat.add_zero]
  add_comm l m := by simp only [add_def, Nat.add_comm]
  nsmul := nsmulRec

/-- The bytes of records. -/
def byteTotal : List Record → ℕ
  | [] => 0
  | record :: records => record.byteCount + byteTotal records

theorem byteTotal_append (records others : List Record) :
    byteTotal (records ++ others) = byteTotal records + byteTotal others := by
  induction records with
  | nil => rw [List.nil_append, byteTotal, Nat.zero_add]
  | cons record records ih => rw [List.cons_append, byteTotal, byteTotal, ih, Nat.add_assoc]

/-- The ledger of a call that hands out records.  Each of its executions leads to a page, to another
attempt or to a failure. -/
def call (pages retries failures : ℕ) (records : List Record) : Ledger where
  executions := pages + retries + failures
  retries := retries
  pages := pages
  rows := records.length
  bytes := byteTotal records
  failures := failures

theorem call_add_call (pages retries failures pages' retries' failures' : ℕ)
    (records records' : List Record) :
    call pages retries failures records + call pages' retries' failures' records' =
      call (pages + pages') (retries + retries') (failures + failures') (records ++ records') := by
  simp only [call, add_def, byteTotal_append, List.length_append, Ledger.mk.injEq, and_true,
    Nat.add_zero, true_and]
  omega

end Ledger

/-! ### Counters after what a ledger says -/

/-- The shared counters after what a ledger says. -/
def Tally.post (tally : Tally) (l : Ledger) : Tally where
  scans := tally.scans + .ofNat l.scans
  executions := tally.executions + .ofNat l.executions
  retries := tally.retries + .ofNat l.retries
  pages := tally.pages + .ofNat l.pages
  rows := tally.rows + .ofNat l.rows
  bytes := tally.bytes + .ofNat l.bytes
  emptyLookups := tally.emptyLookups + .ofNat l.emptyLookups
  failures := tally.failures + .ofNat l.failures

theorem Tally.post_post (tally : Tally) (l m : Ledger) :
    (tally.post l).post m = tally.post (l + m) := by
  simp only [post, Ledger.add_def, UInt64.ofNat_add, UInt64.add_assoc]

theorem Tally.addFailure_eq_post (tally : Tally) : tally.addFailure = tally.post { failures := 1 } := by
  simp [addFailure, post]

/-- A scan has been begun, and perhaps there is nothing to execute. -/
theorem Tally.addScan_eq_post (tally : Tally) (isEmpty : Bool) :
    (if isEmpty then tally.addScan.addEmptyLookup else tally.addScan) =
      tally.post { scans := 1, emptyLookups := if isEmpty then 1 else 0 } := by
  cases isEmpty <;> simp [addScan, addEmptyLookup, post]

/-- The numbers that the shared counters hold. -/
def Tally.toLedger (tally : Tally) : Ledger where
  scans := tally.scans.toNat
  executions := tally.executions.toNat
  retries := tally.retries.toNat
  pages := tally.pages.toNat
  rows := tally.rows.toNat
  bytes := tally.bytes.toNat
  emptyLookups := tally.emptyLookups.toNat
  failures := tally.failures.toNat

/-- No number of a ledger is too large for a shared counter. -/
structure Ledger.Fits (l : Ledger) : Prop where
  scans : l.scans < UInt64.size
  executions : l.executions < UInt64.size
  retries : l.retries < UInt64.size
  pages : l.pages < UInt64.size
  rows : l.rows < UInt64.size
  bytes : l.bytes < UInt64.size
  emptyLookups : l.emptyLookups < UInt64.size
  failures : l.failures < UInt64.size

/-- Counters that started from zero hold the numbers of a ledger that fits. -/
theorem Tally.toLedger_post {l : Ledger} (h : l.Fits) : (({} : Tally).post l).toLedger = l := by
  simp only [toLedger, post, UInt64.zero_add, UInt64.toNat_ofNat_of_lt' h.scans,
    UInt64.toNat_ofNat_of_lt' h.executions, UInt64.toNat_ofNat_of_lt' h.retries,
    UInt64.toNat_ofNat_of_lt' h.pages, UInt64.toNat_ofNat_of_lt' h.rows,
    UInt64.toNat_ofNat_of_lt' h.bytes, UInt64.toNat_ofNat_of_lt' h.emptyLookups,
    UInt64.toNat_ofNat_of_lt' h.failures]

/-- The counters of a scan after what a ledger says. -/
def Stats.post (stats : Stats) (l : Ledger) : Stats where
  executions := stats.executions + l.executions
  retries := stats.retries + l.retries
  pages := stats.pages + l.pages
  rows := stats.rows + l.rows

theorem Stats.post_post (stats : Stats) (l m : Ledger) :
    (stats.post l).post m = stats.post (l + m) := by
  simp only [post, Ledger.add_def, Nat.add_assoc]

/-- Both kinds of counters have been raised by what a ledger says. -/
structure Run.Posts {σ : Type} (run after : Run σ) (l : Ledger) : Prop where
  tally_eq : after.tally = run.tally.post l
  stats_eq : after.stats = run.stats.post l

namespace Run

variable {σ : Type} {run first second : Run σ} {l m : Ledger}

theorem Posts.trans (h : run.Posts first l) (h' : first.Posts second m) :
    run.Posts second (l + m) where
  tally_eq := by rw [h'.tally_eq, h.tally_eq, Tally.post_post]
  stats_eq := by rw [h'.stats_eq, h.stats_eq, Stats.post_post]

theorem posts_addExecution (run : Run σ) (world : σ) :
    run.Posts { run.addExecution with world } { executions := 1 } where
  tally_eq := by simp [addExecution, Tally.addExecution, Tally.post]
  stats_eq := rfl

theorem posts_addRetry (run : Run σ) (world : σ) :
    run.Posts { run.addRetry with world } { retries := 1 } where
  tally_eq := by simp [addRetry, Tally.addRetry, Tally.post]
  stats_eq := rfl

theorem posts_addPage (run : Run σ) : run.Posts run.addPage { pages := 1 } where
  tally_eq := by simp [addPage, Tally.addPage, Tally.post]
  stats_eq := rfl

theorem posts_addFailure (run : Run σ) : run.Posts run.addFailure { failures := 1 } where
  tally_eq := run.tally.addFailure_eq_post
  stats_eq := rfl

theorem posts_addRow (run : Run σ) (record : Record) :
    run.Posts (run.addRow record.byteCount) (.call 0 0 0 [record]) where
  tally_eq := by simp [addRow, Tally.addRow, Tally.post, Ledger.call, Ledger.byteTotal]
  stats_eq := rfl

end Run

/-! ### Fetches -/

/-- A failure of executions. -/
def Failure.isIo : Failure → Bool
  | .io .. => true
  | _ => false

/-- The number of failures that an answer tells of. -/
def failuresOf {α : Type} : Except Failure α → ℕ
  | .ok _ => 0
  | .error _ => 1

/-- Fetching pages has ended with an answer.  A failure is one of an execution, and it has been
counted once. -/
structure Run.Fetches {σ α : Type} (run : Run σ) (answer : Except Failure α) (after : Run σ) :
    Prop where
  isIo : ∀ failure, answer = .error failure → failure.isIo = true
  posts : ∃ pages retries, run.Posts after (.call pages retries (failuresOf answer) [])

/-- What has been counted before belongs to the fetch, if its executions led to pages and further
attempts. -/
theorem Run.Fetches.of_posts {σ α : Type} {run first after : Run σ} {answer : Except Failure α}
    {pages retries : ℕ} (h : run.Posts first (.call pages retries 0 []))
    (hfirst : first.Fetches answer after) : run.Fetches answer after := by
  obtain ⟨morePages, moreRetries, hposts⟩ := hfirst.posts
  refine ⟨hfirst.isIo, pages + morePages, retries + moreRetries, ?_⟩
  have hboth := h.trans hposts
  rwa [Ledger.call_add_call, Nat.zero_add, List.nil_append] at hboth

namespace Session

variable {σ : Type} (session : Session σ)

theorem attempt_posts (statement : Statement) (from? : Option Bytes) (run : Run σ) :
    run.Posts (session.attempt statement from? run).2 { executions := 1 } :=
  run.posts_addExecution _

/-- Each execution of a fetch leads to the page, to another attempt or to the failure. -/
theorem fetchWithin_fetches (statement : Statement) (delay : ℕ) (from? : Option Bytes)
    (left made : ℕ) (run : Run σ) :
    run.Fetches (session.fetchWithin statement delay from? left made run).1
      (session.fetchWithin statement delay from? left made run).2 := by
  refine fetchWithin_induction (motive := fun _ _ run result => run.Fetches result.1 result.2)
    ?page ?fault ?retry left made run
  case page =>
    intro left made run page _
    exact ⟨nofun, 1, 0, (session.attempt_posts statement from? run).trans (Run.posts_addPage _)⟩
  case fault =>
    intro left made run fault _ _
    exact ⟨fun _ h => by cases h; rfl, 0, 0,
      (session.attempt_posts statement from? run).trans (Run.posts_addFailure _)⟩
  case retry =>
    intro left made run fault result _ _ hresult
    have hretry : run.Posts (session.rest delay (session.attempt statement from? run).2)
        (.call 0 1 0 []) :=
      (session.attempt_posts statement from? run).trans (Run.posts_addRetry _ _)
    exact hresult.of_posts hretry

theorem fetch_fetches (retry : RetryPolicy) (statement : Statement) (from? : Option Bytes)
    (run : Run σ) :
    run.Fetches (session.fetch retry statement from? run).1
      (session.fetch retry statement from? run).2 :=
  session.fetchWithin_fetches ..

end Session

namespace Scan

variable {σ : Type} {session : Session σ} {limit : ℕ}

/-- A scan has come to a failure. -/
def Stage.hasFailed : Stage → Bool
  | .failed _ => true
  | _ => false

/-- Fetching pages until one has a row ends with a stage that is no failure, or with a failure that
has been counted once. -/
theorem pull_fetches {retry : RetryPolicy} {statement : Statement} {from? : Option Bytes}
    {run after : Run σ} {answer : Except Failure Stage}
    (h : pull session retry statement limit from? run = some (answer, after)) :
    run.Fetches answer after ∧ ∀ stage, answer = .ok stage → stage.hasFailed = false := by
  have hfetches {from? : Option Bytes} {run after : Run σ} {answer : Except Failure Page}
      (hfetch : session.fetch retry statement from? run = (answer, after)) :
      run.Fetches answer after := by
    have hall := session.fetch_fetches retry statement from? run
    rwa [hfetch] at hall
  refine pull_induction (motive := fun _ run result => run.Fetches result.1 result.2 ∧
    ∀ stage, result.1 = .ok stage → stage.hasFailed = false) ?error ?row ?last ?empty h
  case error =>
    intro _ run failure after hfetch
    exact ⟨⟨fun other heq => (hfetches hfetch).isIo other (by cases heq; rfl),
      (hfetches hfetch).posts⟩, nofun⟩
  case row =>
    intro _ run _ _ _ after hfetch
    exact ⟨⟨nofun, (hfetches hfetch).posts⟩, fun stage heq => by cases heq; rfl⟩
  case last =>
    intro _ run after hfetch
    exact ⟨⟨nofun, (hfetches hfetch).posts⟩, fun stage heq => by cases heq; rfl⟩
  case empty =>
    intro _ run continuation after result hfetch hrest
    obtain ⟨pages, retries, hposts⟩ := (hfetches hfetch).posts
    exact ⟨hrest.1.of_posts hposts, hrest.2⟩

/-! ### Calls of a scan -/

/-- How often the scan has failed. -/
def failureCount (scan : Scan) : ℕ :=
  if scan.stage.hasFailed then 1 else 0

/-- A call of a scan has handed out records and counted them and the executions made for them, and
nothing else. -/
def Posts (scan : Scan) (tally : Tally) (after : Scan) (tally' : Tally) (records : List Record) :
    Prop :=
  ∃ pages retries failures,
    tally' = tally.post (.call pages retries failures records) ∧
    after.stats = scan.stats.post (.call pages retries failures records) ∧
    after.failureCount = scan.failureCount + failures ∧
    after.statement = scan.statement

theorem Posts.refl (scan : Scan) (tally : Tally) : scan.Posts tally scan tally [] := by
  refine ⟨0, 0, 0, ?_, rfl, rfl, rfl⟩
  simp [Tally.post, Ledger.call, Ledger.byteTotal]

theorem Posts.trans {first second third : Scan} {tally tally' tally'' : Tally}
    {records records' : List Record} (h : first.Posts tally second tally' records)
    (h' : second.Posts tally' third tally'' records') :
    first.Posts tally third tally'' (records ++ records') := by
  obtain ⟨pages, retries, failures, htally, hstats, hfailures, hstatement⟩ := h
  obtain ⟨pages', retries', failures', htally', hstats', hfailures', hstatement'⟩ := h'
  refine ⟨pages + pages', retries + retries', failures + failures', ?_, ?_, ?_, ?_⟩
  · rw [htally', htally, Tally.post_post, Ledger.call_add_call]
  · rw [hstats', hstats, Stats.post_post, Ledger.call_add_call]
  · rw [hfailures', hfailures, Nat.add_assoc]
  · rw [hstatement', hstatement]

theorem Posts.of_run {scan : Scan} {world : σ} {tally : Tally} {after : Run σ}
    {pages retries failures : ℕ} {records : List Record}
    (h : Run.Posts ⟨world, tally, scan.stats⟩ after (.call pages retries failures records))
    {stage : Stage}
    (hstage : ({ scan with stage } : Scan).failureCount = scan.failureCount + failures) :
    scan.Posts tally { scan with stage, stats := after.stats } after.tally records :=
  ⟨pages, retries, failures, h.tally_eq, h.stats_eq, hstage, rfl⟩

/-- The records that an answer hands out. -/
def handedOut : Except Failure (Option Record) → List Record
  | .ok (some record) => [record]
  | _ => []

/-- What is fetched behind the last row of a page fails at most once, and then the scan has
failed. -/
theorem refill_posts {scan : Scan} {continuation : Option Bytes} {run after : Run σ} {stage : Stage}
    (h : scan.refill session limit continuation run = some (stage, after)) :
    ∃ pages retries,
      run.Posts after (.call pages retries (if stage.hasFailed then 1 else 0) []) := by
  have hnothing : run.Posts run (.call 0 0 0 []) :=
    ⟨by simp [Tally.post, Ledger.call, Ledger.byteTotal], rfl⟩
  unfold refill at h
  split at h
  · split at h
    · cases h
    · rename_i fetched hpull
      cases h
      obtain ⟨hfetches, hstage⟩ := pull_fetches hpull
      rw [hstage _ rfl]
      exact hfetches.posts
    · rename_i failure fetched hpull
      cases h
      exact (pull_fetches hpull).1.posts
  · cases h
    exact ⟨0, 0, hnothing⟩

/-- Taking the next row counts the row and what is fetched behind it. -/
theorem next_posts {scan : Scan} {world : σ} {tally : Tally}
    {outcome : Outcome σ (Except Failure (Option Record))}
    (h : scan.next session limit world tally = some outcome) :
    scan.Posts tally outcome.scan outcome.tally (handedOut outcome.answer) := by
  have hrefl := Posts.refl scan tally
  obtain ⟨statement, layout, retry, stage, stats⟩ := scan
  cases stage with
  | unstarted =>
    cases h
    exact hrefl
  | exhausted =>
    cases h
    exact hrefl
  | failed owed =>
    cases owed <;> cases h <;> exact hrefl
  | buffered row rows continuation =>
    have hrow := Run.posts_addRow ⟨world, tally, stats⟩ (layout.record row)
    cases rows with
    | cons other rows =>
      cases h
      exact Posts.of_run hrow rfl
    | nil =>
      simp only [next] at h
      split at h
      · cases h
      · rename_i stage fetched hrefill
        cases h
        obtain ⟨pages, retries, hposts⟩ := refill_posts hrefill
        have hboth := hrow.trans hposts
        rw [Ledger.call_add_call] at hboth
        refine Posts.of_run hboth ?_
        simp only [failureCount, Stage.hasFailed, Bool.false_eq_true, if_false, Nat.zero_add]

/-- Starting a fresh scan counts what is fetched, or that there is nothing to execute.  If it fails,
there was something to execute, and the failure is one of an execution. -/
theorem start_posts {scan : Scan} {world : σ} {tally : Tally}
    {outcome : Outcome σ (Except Failure Unit)} (hstage : scan.stage = .unstarted)
    (h : scan.start session limit world tally = some outcome) :
    scan.Posts (if scan.statement.isNone then tally.addEmptyLookup else tally) outcome.scan
        outcome.tally [] ∧
      outcome.scan.failureCount = failuresOf outcome.answer ∧
      ∀ failure, outcome.answer = .error failure →
        failure.isIo = true ∧ scan.statement.isNone = false := by
  obtain ⟨statement, layout, retry, stage, stats⟩ := scan
  subst hstage
  cases statement with
  | none =>
    cases h
    exact ⟨Posts.refl ⟨none, layout, retry, .exhausted, stats⟩ _, rfl, nofun⟩
  | some statement =>
    simp only [start] at h
    split at h
    · cases h
    · rename_i stage fetched hpull
      cases h
      obtain ⟨⟨hio, pages, retries, hposts⟩, hfailed⟩ := pull_fetches hpull
      have hzero : ({ statement, layout, retry, stage, stats } : Scan).failureCount = 0 := by
        simp only [failureCount, hfailed _ rfl, Bool.false_eq_true, if_false]
      exact ⟨Posts.of_run hposts hzero, hzero, nofun⟩
    · rename_i failure fetched hpull
      cases h
      obtain ⟨hio, pages, retries, hposts⟩ := (pull_fetches hpull).1
      exact ⟨Posts.of_run hposts rfl, rfl, fun other heq => ⟨hio other (by cases heq; rfl), rfl⟩⟩

/-! ### Scans that an execution has ended -/

/-- A failure of an execution is still to be told. -/
def Stage.owesIo : Stage → Bool
  | .failed (some failure) => failure.isIo
  | _ => false

/-- An answer tells of a failure of an execution. -/
def tellsIo {α : Type} : Except Failure α → Bool
  | .ok _ => false
  | .error failure => failure.isIo

/-- The scan has failed if and only if a failure of an execution has been told or is still to be
told. -/
def FailsByIo (scan : Scan) (told : Bool) : Prop :=
  scan.stage.hasFailed = (told || scan.stage.owesIo)

theorem failsByIo_of_failureCount {scan : Scan} (h : scan.failureCount = 0) :
    scan.FailsByIo false := by
  obtain ⟨statement, layout, retry, stage, stats⟩ := scan
  cases stage with
  | failed => cases h
  | unstarted | buffered | exhausted => rfl

theorem refill_owesIo {scan : Scan} {continuation : Option Bytes} {run after : Run σ} {stage : Stage}
    (h : scan.refill session limit continuation run = some (stage, after)) :
    stage.hasFailed = stage.owesIo := by
  unfold refill at h
  split at h
  · split at h
    · cases h
    · rename_i fetched hpull
      cases h
      have hstage := (pull_fetches hpull).2 _ rfl
      cases stage with
      | failed => cases hstage
      | unstarted | buffered | exhausted => rfl
    · rename_i failure fetched hpull
      cases h
      exact ((pull_fetches hpull).1.isIo failure rfl).symm
  · cases h
    rfl

theorem next_failsByIo {scan : Scan} {world : σ} {tally : Tally} {told : Bool}
    {outcome : Outcome σ (Except Failure (Option Record))}
    (h : scan.next session limit world tally = some outcome) (hfails : scan.FailsByIo told) :
    outcome.scan.FailsByIo (told || tellsIo outcome.answer) := by
  obtain ⟨statement, layout, retry, stage, stats⟩ := scan
  cases stage with
  | unstarted =>
    cases h
    simpa [FailsByIo, Stage.hasFailed, Stage.owesIo, tellsIo] using hfails
  | exhausted =>
    cases h
    simpa [FailsByIo, Stage.hasFailed, Stage.owesIo, tellsIo] using hfails
  | failed owed =>
    cases owed <;> cases h <;>
      simpa [FailsByIo, Stage.hasFailed, Stage.owesIo, tellsIo, Failure.isIo] using hfails
  | buffered row rows continuation =>
    have htold : told = false := by
      simpa [FailsByIo, Stage.hasFailed, Stage.owesIo] using hfails
    subst htold
    cases rows with
    | cons other rows =>
      cases h
      rfl
    | nil =>
      simp only [next] at h
      split at h
      · cases h
      · rename_i stage fetched hrefill
        cases h
        exact refill_owesIo hrefill

end Scan

end RingScan
