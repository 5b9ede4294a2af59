import RingScan.Memory.Node
import RingScan.Proofs.Scan.Schedule
import RingScan.Scan.Basic

/-!
# Sessions that serve pages

A session may answer a statement with the pages of a list, one after the other: each page but the
last one tells where the next one begins, and an execution that a fault hits changes nothing about
that.  Such a session is met in three places, so it is described by what it does and not by what it
is.  Beside its answers the description names two things to observe, the executions made so far and
the time that has passed.

A fetch from such a session either gets the page that it asks for or ends with a failure, as the
schedule of faults decides.  All its executions ask for the same page.

## Main definitions

* `Page.start`, `Page.nth`: where the page at an index begins, and what it is.
* `Paged`: a session that serves the pages of a list.
* `Paged.execution`, `Paged.executions`: the `j`-th execution since some world, and the first ones.
* `Paged.Traced`, `Paged.Ready`: a world after so many executions.
* `Paged.Standing`: a stage of a scan from which given rows are still to come.

## Main statements

* `Paged.fetch_recovers`, `Paged.fetch_givesUp`: the two ways in which a fetch ends.
* `Paged.pull_course`: how far the scan comes when pages are fetched until one has a row.
-/

namespace RingScan

namespace Page

/-- Where the page at an index begins; the first page needs no mark. -/
def start (mark : ℕ → Bytes) : ℕ → Option Bytes
  | 0 => none
  | i + 1 => some (mark (i + 1))

/-- Where the pages go on after the first `i` of them. -/
def resume (mark : ℕ → Bytes) (pages : List (List Cells)) (i : ℕ) : Option Bytes :=
  if i < pages.length then some (mark i) else none

/-- The page at an index. -/
def nth (mark : ℕ → Bytes) (pages : List (List Cells)) (i : ℕ) : Page where
  rows := (pages[i]?).getD []
  continuation := resume mark pages (i + 1)

end Page

/-- What fetching pages until one has a row answers when it takes a scan to a stage. -/
def Scan.Stage.landing : Scan.Stage → Except Failure Scan.Stage
  | .failed (some failure) => .error failure
  | stage => .ok stage

/-- A session that answers a statement with the pages of a list; an empty list counts as one page
without rows. -/
structure Paged {σ : Type} (session : Session σ) (statement : Statement)
    (pages : List (List Cells)) where
  /-- What a page tells of where the one at an index begins. -/
  mark : ℕ → Bytes
  /-- The executions to come meet these faults. -/
  Meets : σ → Schedule → Prop
  /-- All executions, in order. -/
  log : σ → List Memory.Execution
  /-- The milliseconds that have passed. -/
  clock : σ → ℕ
  answer_execute : ∀ {world faults i}, Meets world faults → i < max 1 pages.length →
    (session.execute statement (Page.start mark i) world).1 =
      match faults.get 0 with
      | some fault => .error fault
      | none => .ok (Page.nth mark pages i)
  meets_execute : ∀ {world faults i}, Meets world faults → i < max 1 pages.length →
    Meets (session.execute statement (Page.start mark i) world).2 (faults.drop 1)
  log_execute : ∀ {world faults i}, Meets world faults → i < max 1 pages.length →
    log (session.execute statement (Page.start mark i) world).2 =
      log world ++ [⟨statement, Page.start mark i, clock world⟩]
  clock_execute : ∀ {world faults i}, Meets world faults → i < max 1 pages.length →
    clock (session.execute statement (Page.start mark i) world).2 = clock world
  meets_pause : ∀ {world faults} delay, Meets world faults →
    Meets (session.pause delay world) faults
  log_pause : ∀ {world faults} delay, Meets world faults →
    log (session.pause delay world) = log world
  clock_pause : ∀ {world faults} delay, Meets world faults →
    clock (session.pause delay world) = clock world + delay

namespace Paged

variable {σ : Type} {session : Session σ} {statement : Statement} {pages : List (List Cells)}
  (paged : Paged session statement pages) (faults : Schedule) (delay : ℕ) (origin : σ)

/-! ### Worlds after so many executions -/

/-- The `j`-th execution since `origin`: it asks for the first page that has not been received, and
a pause has passed for each execution before it that failed. -/
def execution (j : ℕ) : Memory.Execution where
  statement := statement
  from? := Page.start paged.mark (faults.pagesBefore j)
  time := paged.clock origin + delay * faults.faultsBefore j

/-- The first `m` executions since `origin`. -/
def executions (m : ℕ) : List Memory.Execution :=
  (List.range m).map (paged.execution faults delay origin)

/-- There have been `m` executions since `origin`, and the faults after theirs are still to come. -/
structure Traced (m : ℕ) (world : σ) : Prop where
  log_eq : paged.log world = paged.log origin ++ paged.executions faults delay origin m
  meets : paged.Meets world (faults.drop m)

/-- There have been `m` executions since `origin`, and the pauses after those that failed are
over. -/
structure Ready (m : ℕ) (world : σ) : Prop extends paged.Traced faults delay origin m world where
  clock_eq : paged.clock world = paged.clock origin + delay * faults.faultsBefore m

variable {paged faults delay origin} {m i : ℕ} {world : σ}

@[simp] theorem length_executions (m : ℕ) :
    (paged.executions faults delay origin m).length = m := by
  rw [executions, List.length_map, List.length_range]

theorem eq_of_getElem?_executions {j : ℕ} {execution : Memory.Execution}
    (h : (paged.executions faults delay origin m)[j]? = some execution) :
    execution = paged.execution faults delay origin j := by
  rw [executions, List.getElem?_map, Option.map_eq_some_iff] at h
  obtain ⟨k, hk, rfl⟩ := h
  obtain ⟨hj, hjk⟩ := List.getElem?_eq_some_iff.1 hk
  rw [← hjk, List.getElem_range]

theorem executions_succ (m : ℕ) :
    paged.executions faults delay origin (m + 1) =
      paged.executions faults delay origin m ++ [paged.execution faults delay origin m] := by
  rw [executions, List.range_succ, List.map_append, List.map_singleton, executions]

/-- An execution after one that has failed repeats it. -/
theorem execution_succ {j : ℕ} {fault : ExecutionFault} (h : faults.get j = some fault) :
    (paged.execution faults delay origin (j + 1)).statement =
        (paged.execution faults delay origin j).statement ∧
      (paged.execution faults delay origin (j + 1)).from? =
        (paged.execution faults delay origin j).from? := by
  refine ⟨rfl, ?_⟩
  rw [execution, Schedule.pagesBefore_succ_of_some h, execution]

theorem Ready.zero (h : paged.Meets origin faults) : paged.Ready faults delay origin 0 origin where
  log_eq := (List.append_nil _).symm
  meets := h
  clock_eq := by rw [Schedule.faultsBefore_zero, Nat.mul_zero, Nat.add_zero]

/-- One more execution, which asks for the page that is due. -/
theorem Ready.traced_execute (h : paged.Ready faults delay origin m world)
    (hi : i < max 1 pages.length) (hdue : faults.pagesBefore m = i) :
    paged.Traced faults delay origin (m + 1)
      (session.execute statement (Page.start paged.mark i) world).2 where
  log_eq := by
    rw [paged.log_execute h.meets hi, h.log_eq, h.clock_eq, executions_succ, List.append_assoc,
      execution, hdue]
  meets := by simpa only [Stream'.drop_drop] using paged.meets_execute h.meets hi

/-- An execution that meets no fault answers with the page. -/
theorem Ready.execute_page (h : paged.Ready faults delay origin m world)
    (hi : i < max 1 pages.length) (hdue : faults.pagesBefore m = i) (hget : faults.get m = none) :
    (session.execute statement (Page.start paged.mark i) world).1 =
        .ok (Page.nth paged.mark pages i) ∧
      paged.Ready faults delay origin (m + 1)
        (session.execute statement (Page.start paged.mark i) world).2 := by
  refine ⟨?_, h.traced_execute hi hdue, ?_⟩
  · rw [paged.answer_execute h.meets hi, faults.get_drop_zero, hget]
  · rw [paged.clock_execute h.meets hi, h.clock_eq, Schedule.faultsBefore_succ_of_none hget]

/-- An execution that meets a fault answers with it, and after a pause there may be another one. -/
theorem Ready.execute_fault {fault : ExecutionFault} (h : paged.Ready faults delay origin m world)
    (hi : i < max 1 pages.length) (hdue : faults.pagesBefore m = i)
    (hget : faults.get m = some fault) :
    (session.execute statement (Page.start paged.mark i) world).1 = .error fault ∧
      paged.Ready faults delay origin (m + 1)
        (session.pause delay (session.execute statement (Page.start paged.mark i) world).2) := by
  have htraced := h.traced_execute hi hdue
  refine ⟨?_, ⟨?_, paged.meets_pause delay htraced.meets⟩, ?_⟩
  · rw [paged.answer_execute h.meets hi, faults.get_drop_zero, hget]
  · rw [paged.log_pause delay htraced.meets, htraced.log_eq]
  · rw [paged.clock_pause delay htraced.meets, paged.clock_execute h.meets hi, h.clock_eq,
      Schedule.faultsBefore_succ_of_some hget, Nat.mul_succ, Nat.add_assoc]

/-! ### One fetch -/

private theorem fetchWithin_recovers {left made k : ℕ} {run : Run σ}
    (h : paged.Ready faults delay origin m run.world) (hi : i < max 1 pages.length)
    (hdue : faults.pagesBefore m = i) (hk : Schedule.Recovers (left + 1) (faults.drop m) k) :
    ∃ run', session.fetchWithin statement delay (Page.start paged.mark i) left made run =
        (.ok (Page.nth paged.mark pages i), run') ∧
      paged.Ready faults delay origin (m + (k + 1)) run'.world := by
  induction k generalizing m left made run with
  | zero =>
    have hget : faults.get m = none := (faults.get_drop_zero m).symm.trans hk.get_eq
    obtain ⟨hok, hready⟩ := h.execute_page hi hdue hget
    exact ⟨_, Session.fetchWithin_of_ok hok, hready⟩
  | succ k ih =>
    obtain ⟨fault, hget, ht⟩ := hk.waits.head
    rw [faults.get_drop_zero] at hget
    obtain ⟨herror, hready⟩ := h.execute_fault hi hdue hget
    obtain ⟨left, rfl⟩ : ∃ n, left = n + 1 := ⟨left - 1, by have := hk.lt; omega⟩
    rw [Session.fetchWithin_of_transient herror ht, show m + (k + 1 + 1) = m + 1 + (k + 1) by omega]
    exact ih hready ((Schedule.pagesBefore_succ_of_some hget).trans hdue) (by
      simpa only [Stream'.drop_drop] using hk.tail)

private theorem fetchWithin_givesUp (made : ℕ) {left k : ℕ} {fault : ExecutionFault} {run : Run σ}
    (h : paged.Ready faults delay origin m run.world) (hi : i < max 1 pages.length)
    (hdue : faults.pagesBefore m = i)
    (hk : Schedule.GivesUp (left + 1) (faults.drop m) k fault) :
    ∃ run', session.fetchWithin statement delay (Page.start paged.mark i) left made run =
        (.error (.io (made + (k + 1)) fault), run') ∧
      paged.Traced faults delay origin (m + (k + 1)) run'.world := by
  induction k generalizing m left made run with
  | zero =>
    have hget : faults.get m = some fault := (faults.get_drop_zero m).symm.trans hk.get_eq
    obtain ⟨herror, -⟩ := h.execute_fault hi hdue hget
    have hlast (ht : fault.isTransient = true) : left = 0 := by
      have := hk.last ht
      omega
    exact ⟨_, Session.fetchWithin_of_fault herror hlast, h.traced_execute hi hdue⟩
  | succ k ih =>
    obtain ⟨first, hget, ht⟩ := hk.waits.head
    rw [faults.get_drop_zero] at hget
    obtain ⟨herror, hready⟩ := h.execute_fault hi hdue hget
    obtain ⟨left, rfl⟩ : ∃ n, left = n + 1 := ⟨left - 1, by have := hk.lt; omega⟩
    rw [Session.fetchWithin_of_transient herror ht, show m + (k + 1 + 1) = m + 1 + (k + 1) by omega,
      show made + (k + 1 + 1) = made + 1 + (k + 1) by omega]
    exact ih (made + 1) hready ((Schedule.pagesBefore_succ_of_some hget).trans hdue) (by
      simpa only [Stream'.drop_drop] using hk.tail)

variable {retry : RetryPolicy} {run : Run σ} {k : ℕ}

/-- A fetch whose executions recover gets the page that is due, and the next one is due then. -/
theorem fetch_recovers (h : paged.Ready faults retry.delay origin m run.world)
    (hi : i < max 1 pages.length) (hdue : faults.pagesBefore m = i)
    (hk : Schedule.Recovers (max 1 retry.maxAttempts) (faults.drop m) k) :
    ∃ run', session.fetch retry statement (Page.start paged.mark i) run =
        (.ok (Page.nth paged.mark pages i), run') ∧
      paged.Ready faults retry.delay origin (m + (k + 1)) run'.world ∧
      faults.pagesBefore (m + (k + 1)) = i + 1 := by
  have hnext : faults.pagesBefore (m + (k + 1)) = i + 1 := by
    rw [Schedule.pagesBefore_add, hk.pagesBefore_eq, hdue]
  rw [show max 1 retry.maxAttempts = retry.maxAttempts - 1 + 1 by omega] at hk
  obtain ⟨run', hfetch, hready⟩ := fetchWithin_recovers h hi hdue hk
  exact ⟨run', hfetch, hready, hnext⟩

/-- A fetch that gives up tells how many executions it made. -/
theorem fetch_givesUp {fault : ExecutionFault}
    (h : paged.Ready faults retry.delay origin m run.world) (hi : i < max 1 pages.length)
    (hdue : faults.pagesBefore m = i)
    (hk : Schedule.GivesUp (max 1 retry.maxAttempts) (faults.drop m) k fault) :
    ∃ run', session.fetch retry statement (Page.start paged.mark i) run =
        (.error (.io (k + 1) fault), run') ∧
      paged.Traced faults retry.delay origin (m + (k + 1)) run'.world := by
  rw [show max 1 retry.maxAttempts = retry.maxAttempts - 1 + 1 by omega] at hk
  have hfetch := fetchWithin_givesUp 0 h hi hdue hk
  rwa [Nat.zero_add] at hfetch

/-! ### Pages until one has a row -/

/-- The rows of `got` pages after the first `i` of them. -/
def rowsFrom (pages : List (List Cells)) (i got : ℕ) : List Cells :=
  ((pages.drop i).take got).flatten

theorem rowsFrom_succ (pages : List (List Cells)) (i got : ℕ) :
    rowsFrom pages i (got + 1) = (pages[i]?).getD [] ++ rowsFrom pages (i + 1) got := by
  by_cases h : i < pages.length
  · rw [rowsFrom, List.drop_eq_getElem_cons h, List.take_succ_cons, List.flatten_cons,
      List.getElem?_eq_getElem h, Option.getD_some, rowsFrom]
  · rw [rowsFrom, rowsFrom, List.drop_eq_nil_of_le (by omega), List.drop_eq_nil_of_le (by omega),
      List.getElem?_eq_none (by omega)]
    simp only [List.take_nil, List.flatten_nil, Option.getD_none, List.append_nil]

@[simp] theorem rowsFrom_zero (pages : List (List Cells)) (i : ℕ) : rowsFrom pages i 0 = [] := by
  rw [rowsFrom, List.take_zero, List.flatten_nil]

theorem rowsFrom_zero_left (pages : List (List Cells)) (got : ℕ) :
    rowsFrom pages 0 got = (pages.take got).flatten := by
  rw [rowsFrom, List.drop_zero]

theorem rowsFrom_all (pages : List (List Cells)) :
    rowsFrom pages 0 (max 1 pages.length) = pages.flatten := by
  rw [rowsFrom_zero_left, List.take_of_length_le (Nat.le_max_right 1 _)]

variable (paged faults retry origin) in
/-- A stage of a scan that is still to hand out the given rows, and to report the failure that ends
it, if any; by then there will have been `total` executions. -/
inductive Standing (total : ℕ) (failure? : Option Failure) :
    List Cells → Scan.Stage → σ → Prop
  | buffered {row : Cells} {rows : List Cells} {i count got m made : ℕ} {world : σ}
      (hi : 0 < i) (hcount : i + count = max 1 pages.length)
      (hready : paged.Ready faults retry.delay origin m world)
      (hdue : faults.pagesBefore m = i)
      (hcourse : Schedule.Course (max 1 retry.maxAttempts) (faults.drop m) count got made failure?)
      (htotal : m + made = total) :
      Standing total failure? (row :: (rows ++ rowsFrom pages i got))
        (.buffered row rows (Page.resume paged.mark pages i)) world
  | exhausted {world : σ} (hnone : failure? = none)
      (htraced : paged.Traced faults retry.delay origin total world) :
      Standing total failure? [] .exhausted world
  | owed {failure : Failure} {world : σ} (hsome : failure? = some failure)
      (htraced : paged.Traced faults retry.delay origin total world) :
      Standing total failure? [] (.failed (some failure)) world

/-- Where the pages go on is where the next one begins, if there is one. -/
theorem resume_of_pos {mark : ℕ → Bytes} {i count : ℕ} (hi : 0 < i)
    (hcount : i + count = max 1 pages.length) :
    Page.resume mark pages i = if count = 0 then none else Page.start mark i := by
  obtain ⟨i, rfl⟩ : ∃ n, i = n + 1 := ⟨i - 1, by omega⟩
  by_cases h : count = 0
  · rw [if_pos h, Page.resume, if_neg (by omega)]
  · rw [if_neg h, Page.resume, if_pos (by omega), Page.start]

/-- Fetching pages until one has a row, from where the first `i` of them end, takes a scan to a
stage from which it hands out the rows of the pages that are still to come. -/
theorem pull_course {count got made m i limit : ℕ} {failure? : Option Failure} {run : Run σ}
    (hcourse : Schedule.Course (max 1 retry.maxAttempts) (faults.drop m) count got made failure?)
    (hpos : 0 < count) (hlimit : count ≤ limit) (hcount : i + count = max 1 pages.length)
    (hdue : faults.pagesBefore m = i)
    (hready : paged.Ready faults retry.delay origin m run.world) :
    ∃ stage run', Scan.pull session retry statement limit (Page.start paged.mark i) run =
        some (stage.landing, run') ∧
      paged.Standing faults origin retry (m + made) failure? (rowsFrom pages i got) stage
        run'.world := by
  generalize hdrop : faults.drop m = later at hcourse
  induction hcourse generalizing m i limit run with
  | done => exact absurd hpos (Nat.lt_irrefl 0)
  | @page later count got made k failure? hpage hrest ih =>
    subst hdrop
    obtain ⟨limit, rfl⟩ : ∃ n, limit = n + 1 := ⟨limit - 1, by omega⟩
    obtain ⟨run', hfetch, hready', hdue'⟩ := fetch_recovers hready (by omega) hdue hpage
    have hnext : i + 1 + count = max 1 pages.length := by omega
    rw [Stream'.drop_drop] at hrest ih
    rw [rowsFrom_succ, show m + (k + 1 + made) = m + (k + 1) + made by omega]
    cases hrows : (pages[i]?).getD [] with
    | cons row rows =>
      rw [Page.nth, hrows] at hfetch
      exact ⟨_, run', Scan.pull_of_row hfetch,
        .buffered (Nat.succ_pos i) hnext hready' hdue' hrest rfl⟩
    | nil =>
      rw [Page.nth, hrows, resume_of_pos (Nat.succ_pos i) hnext] at hfetch
      by_cases hzero : count = 0
      · -- The page was the last one, so the rest of the course is empty.
        subst hzero
        cases hrest
        rw [if_pos rfl] at hfetch
        exact ⟨.exhausted, run', Scan.pull_of_last hfetch, by
          simpa only [rowsFrom_zero] using .exhausted rfl hready'.toTraced⟩
      · rw [if_neg hzero] at hfetch
        rw [Scan.pull_of_empty hfetch]
        exact ih (Nat.pos_of_ne_zero hzero) (by omega) hnext hdue' hready' rfl
  | @broken later k fault count hbroken =>
    subst hdrop
    obtain ⟨limit, rfl⟩ : ∃ n, limit = n + 1 := ⟨limit - 1, by omega⟩
    obtain ⟨run', hfetch, htraced⟩ := fetch_givesUp hready (by omega) hdue hbroken
    exact ⟨.failed (some (.io (k + 1) fault)), run', Scan.pull_of_error hfetch, by
      simpa only [rowsFrom_zero] using .owed rfl htraced⟩

end Paged

end RingScan
