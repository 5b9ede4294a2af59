import RingScan.Cluster.Session
import RingScan.Scan.Tally

/-!
# Fetching pages

A page is fetched by executing the statement until it succeeds, fails for good, or has been tried
as often as the retry policy allows.  Every attempt goes on from the same place.

## Main definitions

* `Run`: the world and the counters while a statement is executed.
* `Session.fetch`: one page.
-/

namespace RingScan

/-- The world and the counters while a statement is executed. -/
structure Run (σ : Type) where
  /-- The world that the session acts on. -/
  world : σ
  /-- The counters that all readers share. -/
  tally : Tally
  /-- The counters of the scan. -/
  stats : Stats

namespace Run

variable {σ : Type}

/-- An execution has been counted. -/
def addExecution (run : Run σ) : Run σ :=
  { run with tally := run.tally.addExecution, stats := run.stats.addExecution }

/-- A retry has been counted. -/
def addRetry (run : Run σ) : Run σ :=
  { run with tally := run.tally.addRetry, stats := run.stats.addRetry }

/-- A page has been counted. -/
def addPage (run : Run σ) : Run σ :=
  { run with tally := run.tally.addPage, stats := run.stats.addPage }

/-- A row of the given number of bytes has been counted. -/
def addRow (run : Run σ) (bytes : Nat) : Run σ :=
  { run with tally := run.tally.addRow bytes, stats := run.stats.addRow }

/-- A failure has been counted. -/
def addFailure (run : Run σ) : Run σ :=
  { run with tally := run.tally.addFailure }

end Run

namespace Session

variable {σ : Type} (session : Session σ)

/-- Executes a statement once and counts the execution. -/
def attempt (statement : Statement) (from? : Option Bytes) (run : Run σ) :
    Except ExecutionFault Page × Run σ :=
  let (answer, world) := session.execute statement from? run.world
  (answer, { run.addExecution with world })

/-- Counts a retry and lets the time before it pass. -/
def rest (delay : Nat) (run : Run σ) : Run σ :=
  let run := run.addRetry
  { run with world := session.pause delay run.world }

/-- Fetches a page after `made` attempts, when `left` further ones may follow the next one. -/
def fetchWithin (statement : Statement) (delay : Nat) (from? : Option Bytes) :
    Nat → Nat → Run σ → Except Failure Page × Run σ
  | left, made, run =>
    match session.attempt statement from? run with
    | (.ok page, run) => (.ok page, run.addPage)
    | (.error fault, run) =>
      match left with
      | 0 => (.error (.io (made + 1) fault), run.addFailure)
      | left + 1 =>
        if fault.isTransient then
          fetchWithin statement delay from? left (made + 1) (session.rest delay run)
        else (.error (.io (made + 1) fault), run.addFailure)

section FetchWithin

variable {session} {statement : Statement} {delay : Nat} {from? : Option Bytes} {left made : Nat}
  {run : Run σ} {fault : ExecutionFault}

theorem fetchWithin_of_ok {page : Page}
    (h : (session.execute statement from? run.world).1 = .ok page) :
    session.fetchWithin statement delay from? left made run =
      (.ok page, (session.attempt statement from? run).2.addPage) := by
  simp only [fetchWithin, attempt, h]

/-- A fault that another attempt may mend uses up an attempt. -/
theorem fetchWithin_of_transient (h : (session.execute statement from? run.world).1 = .error fault)
    (ht : fault.isTransient = true) :
    session.fetchWithin statement delay from? (left + 1) made run =
      session.fetchWithin statement delay from? left (made + 1)
        (session.rest delay (session.attempt statement from? run).2) := by
  rw [fetchWithin]
  simp only [attempt, h, ht, if_true]

/-- Any other fault, and any fault of the last attempt, ends the fetch. -/
theorem fetchWithin_of_fault (h : (session.execute statement from? run.world).1 = .error fault)
    (hlast : fault.isTransient = true → left = 0) :
    session.fetchWithin statement delay from? left made run =
      (.error (.io (made + 1) fault), (session.attempt statement from? run).2.addFailure) := by
  cases left with
  | zero => simp only [fetchWithin, attempt, h]
  | succ left =>
    rw [fetchWithin]
    simp only [attempt, h, if_neg fun ht => Nat.succ_ne_zero left (hlast ht)]

/-- What holds of every fetch that ends with its next attempt, and is kept by an attempt that
another one follows, holds of every fetch. -/
theorem fetchWithin_induction {motive : Nat → Nat → Run σ → Except Failure Page × Run σ → Prop}
    (page : ∀ {left made run page}, (session.execute statement from? run.world).1 = .ok page →
      motive left made run (.ok page, (session.attempt statement from? run).2.addPage))
    (fault : ∀ {left made run fault},
      (session.execute statement from? run.world).1 = .error fault →
      (fault.isTransient = true → left = 0) → motive left made run
        (.error (.io (made + 1) fault), (session.attempt statement from? run).2.addFailure))
    (retry : ∀ {left made run fault result},
      (session.execute statement from? run.world).1 = .error fault → fault.isTransient = true →
      motive left (made + 1) (session.rest delay (session.attempt statement from? run).2) result →
      motive (left + 1) made run result)
    (left made : Nat) (run : Run σ) :
    motive left made run (session.fetchWithin statement delay from? left made run) := by
  induction left generalizing made run with
  | zero =>
    cases hanswer : (session.execute statement from? run.world).1 with
    | ok received => exact fetchWithin_of_ok hanswer ▸ page hanswer
    | error cause => exact fetchWithin_of_fault hanswer (fun _ => rfl) ▸ fault hanswer fun _ => rfl
  | succ left ih =>
    cases hanswer : (session.execute statement from? run.world).1 with
    | ok received => exact fetchWithin_of_ok hanswer ▸ page hanswer
    | error cause =>
      by_cases hcause : cause.isTransient = true
      · exact fetchWithin_of_transient hanswer hcause ▸ retry hanswer hcause (ih (made + 1) _)
      · have hlast : cause.isTransient = true → left + 1 = 0 := fun h => absurd h hcause
        exact fetchWithin_of_fault hanswer hlast ▸ fault hanswer hlast

end FetchWithin

/-- Fetches the page at the beginning of a statement, or where an earlier page ended.  There is at
least one attempt. -/
def fetch (retry : RetryPolicy) (statement : Statement) (from? : Option Bytes) (run : Run σ) :
    Except Failure Page × Run σ :=
  session.fetchWithin statement retry.delay from? (retry.maxAttempts - 1) 0 run

end Session

end RingScan
