import RingScan.Proofs.Memory.Pages
import RingScan.Proofs.Scan.History

/-!
# What a scan delivers

A scan whose session serves pages delivers all of their rows as long as every fetch gets its page:
which executions fail, and how often, cannot be told from the answers.  A fetch that gives up ends
the scan.  The rows of the pages before it are delivered all the same, the failure is told once and
right after them, and nothing that the scan answers looks as if its rows had come to an end.

## Main statements

* `Paged.history_of_recovery`: retries are invisible.
* `Paged.history_of_failure`: a failed scan delivers a prefix and tells its failure once.
-/

namespace RingScan

/-! ### Answers -/

/-- A scan with a failure to tell never answers that there is no row. -/
theorem Scan.answerAt_some_ne (records : List Record) (failure : Failure) (i : ℕ) :
    answerAt records (some failure) i ≠ .ok none := by
  cases h : records[i]? with
  | none => simp only [answerAt, h, ne_eq, reduceCtorEq, not_false_eq_true]
  | some record => simp only [answerAt, h, ne_eq, Except.ok.injEq, reduceCtorEq, not_false_eq_true]

theorem Scan.answers_none (records : List Record) (count : ℕ) :
    answers records none count = (.ok (), (List.range count).map fun i => .ok records[i]?) := by
  rw [answers_of_ok fun _ => rfl]
  exact congrArg _ (List.map_congr_left fun i _ => answerAt_none records i)

theorem Scan.not_mem_answers_some (records : List Record) (failure : Failure) (count : ℕ) :
    .ok none ∉ (answers records (some failure) count).2 := by
  intro hmem
  cases records with
  | nil =>
    obtain heq := List.eq_of_mem_replicate hmem
    cases heq
  | cons record records =>
    obtain ⟨i, -, heq⟩ := List.mem_map.1 hmem
    exact answerAt_some_ne _ failure i heq

namespace Paged

variable {σ : Type} {session : Session σ} {statement : Statement} {pages : List (List Cells)}
  {paged : Paged session statement pages} {faults : Schedule} {origin : σ} {retry : RetryPolicy}
  {layout : RowLayout} {limit : ℕ} {stats : Stats} {tally : Tally}

/-! ### Scans without a failure -/

variable (retry layout stats tally) in
/-- **Retries are invisible.** While no fetch gives up, a scan hands out the records of all pages in
order and then says for ever that there is none, just as it does without faults.  An execution after
one that has failed repeats it, each one happens when a pause has passed for each retry before it,
and when the last record has been handed out there have been as many executions as pages and faults
together. -/
theorem history_of_recovery (hlimit : pages.length < limit) (hmeets : paged.Meets origin faults)
    (hmend : ∀ got made failure, ¬ Schedule.Course (max 1 retry.maxAttempts) faults
      (max 1 pages.length) got made (some failure)) (count : ℕ) :
    ∃ ending, ∃ executions : List Memory.Execution, Scan.history session limit count
        ⟨some statement, layout, retry, .unstarted, stats⟩ origin tally = some ending ∧
      ending.answer =
        (.ok (), (List.range count).map fun i => .ok (pages.flatten.map layout.record)[i]?) ∧
      (∀ calm calmTally, paged.Meets calm (Stream'.const none) →
        ∃ quiet, Scan.history session limit count
            ⟨some statement, layout, retry, .unstarted, stats⟩ calm calmTally = some quiet ∧
          quiet.answer = ending.answer) ∧
      paged.log ending.world = paged.log origin ++ executions ∧
      (∀ j (execution : Memory.Execution), executions[j]? = some execution → execution =
        ⟨statement, Page.start paged.mark (faults.pagesBefore j),
          paged.clock origin + retry.delay * faults.faultsBefore j⟩) ∧
      (∀ j first again, executions[j]? = some first → executions[j + 1]? = some again →
        faults.get j ≠ none → again.statement = first.statement ∧ again.from? = first.from?) ∧
      (pages.flatten.length ≤ count →
        executions.length = max 1 pages.length + faults.faultsBefore executions.length) := by
  obtain ⟨made, hcourse⟩ :=
    Schedule.exists_course_none (show 0 < max 1 retry.maxAttempts by omega) hmend
  obtain ⟨ending, hhistory, hanswer, -, m, -, htraced, htotal⟩ :=
    history_course layout stats tally hlimit hmeets hcourse count
  rw [rowsFrom_all] at hanswer htotal
  refine ⟨ending, _, hhistory, hanswer.trans (Scan.answers_none _ count), ?_, htraced.log_eq, ?_,
    ?_, ?_⟩
  · intro calm calmTally hcalm
    have hconst := Schedule.course_const (show 0 < max 1 retry.maxAttempts by omega)
      (max 1 pages.length)
    obtain ⟨quiet, hquiet, hsame, -⟩ :=
      history_course layout stats calmTally hlimit hcalm hconst count
    exact ⟨quiet, hquiet, by rw [hsame, hanswer, rowsFrom_all]⟩
  · intro j execution h
    exact eq_of_getElem?_executions h
  · intro j first again hfirst hagain hfault
    obtain ⟨fault, hget⟩ := Option.ne_none_iff_exists'.1 hfault
    rw [eq_of_getElem?_executions hfirst, eq_of_getElem?_executions hagain]
    exact execution_succ hget
  · intro hcount
    obtain rfl := htotal hcount
    have hpages := hcourse.pagesBefore_eq
    have hall := faults.pagesBefore_add_faultsBefore m
    rw [length_executions]
    omega

/-- The second of four executions finds no host; the second page has no rows. -/
theorem history_of_recovery_three_pages :
    ∃ ending, Scan.history Memory.Node.session 4 3
        ⟨some ⟨"", [], 1⟩, ⟨["id"], []⟩, { maxAttempts := 2, delay := 10 }, .unstarted, {}⟩
        { store := .fixed [[.ofList [("id", some [1])]], [], [.ofList [("id", some [2])]]]
          faults := [none, some (.noHost "")] } {} = some ending ∧
      ending.answer = (.ok (), [
        .ok (some ⟨.ofList [("id", some [1])], ∅⟩), .ok (some ⟨.ofList [("id", some [2])], ∅⟩),
        .ok none]) := by
  let pages : List (List Cells) := [[.ofList [("id", some [1])]], [], [.ofList [("id", some [2])]]]
  let node : Memory.Node := { store := .fixed pages, faults := [none, some (.noHost "")] }
  let faults : Schedule := fun n => (node.faults[n]?).join
  have hmeets : (Memory.Node.paged (Memory.Store.serves_fixed pages ⟨"", [], 1⟩)).Meets node
      faults := ⟨rfl, fun _ => rfl⟩
  have hsecond : Schedule.Recovers 2 (faults.drop 1) 1 :=
    ⟨by decide, Schedule.Waits.succ rfl rfl (Schedule.waits_zero _), rfl⟩
  have hthird : Schedule.Course 2 (faults.drop 3) 1 1 1 none :=
    .page (Schedule.recovers_zero (by decide) rfl) (.done _)
  have hcourse : Schedule.Course 2 faults 3 3 4 none :=
    .page (Schedule.recovers_zero (by decide) rfl) (.page hsecond hthird)
  obtain ⟨ending, -, hhistory, hanswer, -⟩ :=
    history_of_recovery { maxAttempts := 2, delay := 10 } ⟨["id"], []⟩ {} {}
      (show pages.length < 4 by decide) hmeets (fun got made => hcourse.not_broken rfl) 3
  exact ⟨ending, hhistory, hanswer.trans (by decide)⟩

/-! ### Scans with a failure -/

variable (retry layout stats tally) in
/-- **A failed scan delivers a prefix and tells its failure once.** When the fetch of page `f` is
the first one that gives up, the records are those of the pages before it.  The failure is told by
the start if there is no such record and otherwise right after the last one; it tells the number of
executions that asked for the page, of which there are not more than attempts.  There is something
to report until it has been told, afterwards there is nothing and no execution is made, and at no
time does the scan say that there is no row. -/
theorem history_of_failure {f made : ℕ} {failure : Failure} (hlimit : pages.length < limit)
    (hmeets : paged.Meets origin faults)
    (hbroken : Schedule.Course (max 1 retry.maxAttempts) faults (max 1 pages.length) f made
      (some failure)) (count : ℕ) :
    ∃ ending, ∃ executions : List Memory.Execution, Scan.history session limit count
        ⟨some statement, layout, retry, .unstarted, stats⟩ origin tally = some ending ∧
      ending.answer =
        Scan.answers ((pages.take f).flatten.map layout.record) (some failure) count ∧
      .ok none ∉ ending.answer.2 ∧
      (∃ k fault, failure = .io k fault ∧ k ≤ max 1 retry.maxAttempts ∧
        Nat.count (fun j => faults.pagesBefore j = f) made = k) ∧
      ending.scan.hasNext =
        decide ((pages.take f).flatten ≠ [] ∧ count ≤ (pages.take f).flatten.length) ∧
      paged.log ending.world = paged.log origin ++ executions ∧
      (∀ j (execution : Memory.Execution), executions[j]? = some execution → execution =
        ⟨statement, Page.start paged.mark (faults.pagesBefore j),
          paged.clock origin + retry.delay * faults.faultsBefore j⟩) ∧
      executions.length ≤ made ∧
      ((pages.take f).flatten.length ≤ count → executions.length = made) := by
  obtain ⟨ending, hhistory, hanswer, hhas, m, hm, htraced, htotal⟩ :=
    history_course layout stats tally hlimit hmeets hbroken count
  rw [rowsFrom_zero_left] at hanswer hhas htotal
  refine ⟨ending, _, hhistory, hanswer, ?_, hbroken.exists_io, ?_, htraced.log_eq, ?_, ?_, ?_⟩
  · rw [hanswer]
    exact Scan.not_mem_answers_some _ failure count
  · rw [hhas]
    exact decide_eq_decide.2 (and_congr_right fun _ => Nat.lt_succ_iff)
  · intro j execution h
    exact eq_of_getElem?_executions h
  · rwa [length_executions]
  · rwa [length_executions]

/-- Neither attempt to fetch the second page finds a host. -/
theorem history_of_failure_second_page :
    ∃ ending, Scan.history Memory.Node.session 3 3
        ⟨some ⟨"", [], 1⟩, ⟨["id"], []⟩, { maxAttempts := 2, delay := 10 }, .unstarted, {}⟩
        { store := .fixed [[.ofList [("id", some [1])]], [.ofList [("id", some [2])]]]
          faults := [none, some (.noHost "a"), some (.noHost "b")] } {} = some ending ∧
      ending.answer = (.ok (), [.ok (some ⟨.ofList [("id", some [1])], ∅⟩),
        .error (.io 2 (.noHost "b")), .error .aborted]) ∧
      ending.scan.hasNext = false ∧ ending.world.executions.length = 3 := by
  let pages : List (List Cells) := [[.ofList [("id", some [1])]], [.ofList [("id", some [2])]]]
  let node : Memory.Node :=
    { store := .fixed pages, faults := [none, some (.noHost "a"), some (.noHost "b")] }
  let faults : Schedule := fun n => (node.faults[n]?).join
  have hmeets : (Memory.Node.paged (Memory.Store.serves_fixed pages ⟨"", [], 1⟩)).Meets node
      faults := ⟨rfl, fun _ => rfl⟩
  have hsecond : Schedule.GivesUp 2 (faults.drop 1) 1 (.noHost "b") :=
    ⟨by decide, Schedule.Waits.succ rfl rfl (Schedule.waits_zero _), rfl, fun _ => rfl⟩
  have hbroken : Schedule.Course 2 faults 2 1 3 (some (.io 2 (.noHost "b"))) :=
    .page (Schedule.recovers_zero (by decide) rfl) (.broken 0 hsecond)
  obtain ⟨ending, executions, hhistory, hanswer, -, -, hhas, hlog, -, -, hall⟩ :=
    history_of_failure { maxAttempts := 2, delay := 10 } ⟨["id"], []⟩ {} {}
      (show pages.length < 3 by decide) hmeets hbroken 3
  refine ⟨ending, hhistory, hanswer.trans (by decide), hhas.trans (by decide), ?_⟩
  exact (congrArg List.length hlog).trans ((List.length_append).trans (by
    rw [hall (by decide)]
    rfl))

end Paged

end RingScan
