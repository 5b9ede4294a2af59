import Mathlib.Order.Bounds.Defs
import RingScan.Proofs.Memory.Pages
import RingScan.Proofs.Scan.History
import RingScan.Proofs.Scan.Registers

/-!
# When pages are fetched

A scan knows whether there is another row without asking the session, so it fetches the next page as
soon as the last row of a page is taken; it does not fetch any page earlier than that.  Which pages
have been fetched after a number of rows can therefore be told from the lengths of the pages alone:
those up to the first one with which there are more rows than have been handed out.

## Main definitions

* `Paged.Holding`: what a scan holds that has handed out a number of rows.

## Main statements

* `Paged.pull_holding`, `Paged.next_holding`: what a scan holds after fetching pages, and after
  handing out a row.
* `Paged.follow_lazily`: pages are fetched as late as possible.
-/

namespace RingScan

/-- A fetch that gets its page counts one page. -/
theorem Session.pages_of_fetch {σ : Type} {session : Session σ} {retry : RetryPolicy}
    {statement : Statement} {from? : Option Bytes} {run after : Run σ} {page : Page}
    (h : session.fetch retry statement from? run = (.ok page, after)) :
    after.stats.pages = run.stats.pages + 1 := by
  have hcounted : ∀ page, (session.fetch retry statement from? run).1 = .ok page →
      (session.fetch retry statement from? run).2.stats.pages = run.stats.pages + 1 :=
    fetchWithin_induction (motive := fun _ _ run result => ∀ page, result.1 = .ok page →
      result.2.stats.pages = run.stats.pages + 1)
      (fun _ _ _ => rfl) (fun _ _ _ => nofun) (fun _ _ hrest => hrest) _ _ run
  rw [h] at hcounted
  exact hcounted page rfl

namespace Paged

variable {σ : Type} {session : Session σ} {statement : Statement} {pages : List (List Cells)}
  {paged : Paged session statement pages} {faults : Schedule} {origin : σ} {retry : RetryPolicy}
  {layout : RowLayout} {limit i k : ℕ} {stage : Scan.Stage} {run : Run σ}

/-! ### Pages up to an index -/

theorem flatten_take_succ (pages : List (List Cells)) (i : ℕ) :
    (pages.take (i + 1)).flatten = (pages.take i).flatten ++ (pages[i]?).getD [] := by
  rw [List.take_add_one, List.flatten_append]
  cases pages[i]? <;> simp

theorem flatten_take_of_le (h : pages.length ≤ i) : (pages.take i).flatten = pages.flatten := by
  rw [List.take_of_length_le h]

theorem length_flatten_take_mono {j : ℕ} (h : i ≤ j) :
    (pages.take i).flatten.length ≤ (pages.take j).flatten.length := by
  obtain ⟨n, rfl⟩ := Nat.exists_eq_add_of_le h
  induction n with
  | zero => exact Nat.le_refl _
  | succ n ih =>
    rw [← Nat.add_assoc, flatten_take_succ, List.length_append]
    exact Nat.le_add_right_of_le (ih (Nat.le_add_right i n))

theorem length_flatten_take_le (pages : List (List Cells)) (i : ℕ) :
    (pages.take i).flatten.length ≤ pages.flatten.length := by
  rw [← flatten_take_of_le (Nat.le_max_right i pages.length)]
  exact length_flatten_take_mono (Nat.le_max_left i pages.length)

/-- What is left of the first pages begins with the row that is due. -/
theorem getElem?_flatten {row : Cells} {rows : List Cells}
    (h : (pages.take i).flatten.drop k = row :: rows) : pages.flatten[k]? = some row := by
  have hsplit : (pages.take i).flatten ++ (pages.drop i).flatten = pages.flatten := by
    rw [← List.flatten_append, List.take_append_drop]
  have hget : (pages.take i).flatten[k]? = some row := by
    rw [← List.head?_drop, h, List.head?_cons]
  rw [← hsplit, List.getElem?_append_left (List.getElem?_eq_some_iff.1 hget).1, hget]

/-! ### What a scan holds -/

variable (paged faults origin retry) in
/-- A scan that has handed out `k` rows holds the rest of the last page that it has fetched, before
which no page had a row left; or it has handed out all rows and fetched all pages. -/
inductive Holding (k : ℕ) : Scan.Stage → Run σ → Prop
  | buffered {row : Cells} {rows : List Cells} {i m count made : ℕ} {run : Run σ}
      (hpages : run.stats.pages = i + 1)
      (hbefore : (pages.take i).flatten.length ≤ k)
      (hrows : (pages.take (i + 1)).flatten.drop k = row :: rows)
      (hcount : i + 1 + count = max 1 pages.length)
      (hready : paged.Ready faults retry.delay origin m run.world)
      (hdue : faults.pagesBefore m = i + 1)
      (hasked : ∀ j < m, faults.pagesBefore j ≤ i)
      (hcourse : Schedule.Course (max 1 retry.maxAttempts) (faults.drop m) count count made none) :
      Holding k (.buffered row rows (Page.resume paged.mark pages (i + 1))) run
  | exhausted {m : ℕ} {run : Run σ}
      (hall : k = pages.flatten.length)
      (hpages : run.stats.pages = max 1 pages.length)
      (htraced : paged.Traced faults retry.delay origin m run.world)
      (hdue : faults.pagesBefore m = max 1 pages.length) :
      Holding k .exhausted run

/-- When all rows of the first pages have been handed out, fetching pages until one has a row takes
a scan to the rows of that page, or to its end. -/
theorem pull_holding {count made m : ℕ}
    (hcourse : Schedule.Course (max 1 retry.maxAttempts) (faults.drop m) count count made none)
    (hpos : 0 < count) (hlimit : count ≤ limit) (hcount : i + count = max 1 pages.length)
    (hpages : run.stats.pages = i) (hbefore : (pages.take i).flatten.length = k)
    (hready : paged.Ready faults retry.delay origin m run.world)
    (hdue : faults.pagesBefore m = i) :
    ∃ stage run', Scan.pull session retry statement limit (Page.start paged.mark i) run =
        some (.ok stage, run') ∧
      paged.Holding faults origin retry k stage run' := by
  induction count generalizing m made i limit run with
  | zero => exact absurd hpos (Nat.lt_irrefl 0)
  | succ count ih =>
    obtain ⟨limit, rfl⟩ : ∃ n, limit = n + 1 := ⟨limit - 1, by omega⟩
    cases hcourse with
    | @page _ _ _ made n _ hpage hrest =>
      obtain ⟨run', hfetch, hready', hdue'⟩ := fetch_recovers hready (by omega) hdue hpage
      have hpages' : run'.stats.pages = i + 1 := by
        rw [Session.pages_of_fetch hfetch, hpages]
      have hnext : i + 1 + count = max 1 pages.length := by omega
      have hasked : ∀ j < m + (n + 1), faults.pagesBefore j ≤ i := by
        intro j hj
        rw [← hdue, ← Nat.add_zero (faults.pagesBefore m), ← hpage.waits.pagesBefore_eq le_rfl,
          ← Schedule.pagesBefore_add]
        exact Nat.count_monotone _ (by omega)
      have htake := flatten_take_succ pages i
      rw [Stream'.drop_drop] at hrest
      cases hrows : (pages[i]?).getD [] with
      | cons row rows =>
        rw [Page.nth, hrows] at hfetch
        refine ⟨_, run', Scan.pull_of_row hfetch,
          .buffered hpages' hbefore.le ?_ hnext hready' hdue' hasked hrest⟩
        rw [htake, ← hbefore, List.drop_left, hrows]
      | nil =>
        rw [hrows, List.append_nil] at htake
        rw [Page.nth, hrows, resume_of_pos (Nat.succ_pos i) hnext] at hfetch
        by_cases hzero : count = 0
        · subst hzero
          rw [if_pos rfl] at hfetch
          refine ⟨.exhausted, run', Scan.pull_of_last hfetch, .exhausted ?_ ?_ hready'.toTraced ?_⟩
          · rw [← hbefore, ← htake, flatten_take_of_le (by omega)]
          · exact hpages'.trans hnext
          · exact hdue'.trans hnext
        · rw [if_neg hzero] at hfetch
          rw [Scan.pull_of_empty hfetch]
          exact ih hrest (Nat.pos_of_ne_zero hzero) (by omega) hnext hpages'
            ((congrArg List.length htake).trans hbefore) hready' hdue'

theorem Holding.landing (h : paged.Holding faults origin retry k stage run) :
    stage.landing = .ok stage := by
  cases h <;> rfl

variable (layout) in
/-- A scan that has not handed out all rows hands out the next one. -/
theorem next_holding (hlimit : pages.length < limit)
    (h : paged.Holding faults origin retry k stage run) (hk : k < pages.flatten.length) :
    ∃ row stage' run', pages.flatten[k]? = some row ∧
      Scan.next session limit ⟨some statement, layout, retry, stage, run.stats⟩ run.world
          run.tally =
        some ⟨.ok (some (layout.record row)), ⟨some statement, layout, retry, stage', run'.stats⟩,
          run'.world, run'.tally⟩ ∧
      paged.Holding faults origin retry (k + 1) stage' run' := by
  cases h with
  | exhausted hall => exact absurd hk (by omega)
  | @buffered row rows i m count made _ hpages hbefore hrows hcount hready hdue hasked hcourse =>
    have hdrop : (pages.take (i + 1)).flatten.drop (k + 1) = rows := by
      rw [← List.drop_drop, hrows, List.drop_one, List.tail_cons]
    let counted : Run σ := run.addRow (layout.record row).byteCount
    have hcounted : counted.stats.pages = i + 1 := hpages
    refine ⟨row, ?_⟩
    cases rows with
    | cons next rows =>
      exact ⟨_, counted, getElem?_flatten hrows, rfl,
        .buffered hcounted (Nat.le_succ_of_le hbefore) hdrop hcount hready hdue hasked hcourse⟩
    | nil =>
      have hlength : (pages.take (i + 1)).flatten.length = k + 1 := by
        have hone := congrArg List.length hrows
        rw [List.length_drop, List.length_singleton] at hone
        omega
      rw [resume_of_pos (Nat.succ_pos i) hcount]
      by_cases hzero : count = 0
      · -- The page was the last one, so there is nothing left to come.
        subst hzero
        rw [if_pos rfl]
        refine ⟨.exhausted, counted, getElem?_flatten hrows, rfl,
          .exhausted ?_ ?_ hready.toTraced ?_⟩
        · rw [← hlength, flatten_take_of_le (by omega)]
        · exact hcounted.trans hcount
        · exact hdue.trans hcount
      · rw [if_neg hzero]
        obtain ⟨stage', run', hpull, hholding⟩ := pull_holding hcourse
          (Nat.pos_of_ne_zero hzero) (show count ≤ limit by omega) hcount hcounted hlength hready
          hdue
        rw [← hholding.landing] at hpull
        exact ⟨stage', run', getElem?_flatten hrows, Scan.next_of_pull hpull, hholding⟩

variable (layout) in
/-- A scan hands out row after row. -/
theorem follow_holding (hlimit : pages.length < limit) (count : ℕ)
    (h : paged.Holding faults origin retry k stage run) (hk : k + count ≤ pages.flatten.length) :
    ∃ stage' run', Scan.follow session (List.replicate count (.next limit))
        ⟨some statement, layout, retry, stage, run.stats⟩ run.world run.tally =
      some ⟨((pages.flatten.drop k).take count).map
          fun row => .taken (.ok (some (layout.record row))),
        ⟨some statement, layout, retry, stage', run'.stats⟩, run'.world, run'.tally⟩ ∧
      paged.Holding faults origin retry (k + count) stage' run' := by
  induction count generalizing k stage run with
  | zero => exact ⟨stage, run, by rw [List.take_zero]; rfl, h⟩
  | succ count ih =>
    obtain ⟨row, stage', run', hrow, hnext, hholding⟩ := next_holding layout hlimit h (by omega)
    obtain ⟨last, after, hfollow, hlast⟩ := ih hholding (by omega)
    refine ⟨last, after, ?_, by rwa [Nat.add_right_comm, Nat.add_assoc] at hlast⟩
    have hdrop : pages.flatten.drop k = row :: pages.flatten.drop (k + 1) := by
      obtain ⟨hlt, hget⟩ := List.getElem?_eq_some_iff.1 hrow
      rw [List.drop_eq_getElem_cons hlt, hget]
    rw [List.replicate_succ, Scan.follow, Scan.call, hnext, hdrop, List.take_succ_cons,
      List.map_cons]
    simp only [Option.map_some, Option.bind_some, hfollow]

variable (layout) in
/-- A start takes a scan to the first row. -/
theorem start_holding (hlimit : pages.length < limit) (hmeets : paged.Meets origin faults)
    (hmend : ∀ got made failure, ¬ Schedule.Course (max 1 retry.maxAttempts) faults
      (max 1 pages.length) got made (some failure)) (tally : Tally) :
    ∃ stage run, Scan.start session limit { statement := some statement, layout, retry } origin
        tally =
      some ⟨.ok (), ⟨some statement, layout, retry, stage, run.stats⟩, run.world, run.tally⟩ ∧
      paged.Holding faults origin retry 0 stage run := by
  obtain ⟨made, hcourse⟩ :=
    Schedule.exists_course_none (show 0 < max 1 retry.maxAttempts by omega) hmend
  have hready : paged.Ready faults retry.delay origin 0
      (⟨origin, tally, {}⟩ : Run σ).world := Ready.zero hmeets
  have hnothing : (pages.take 0).flatten.length = 0 := by rw [List.take_zero]; rfl
  obtain ⟨stage, run, hpull, hholding⟩ := pull_holding hcourse (by omega)
    (show max 1 pages.length ≤ limit by omega) (Nat.zero_add _) rfl hnothing hready
    faults.pagesBefore_zero
  exact ⟨stage, run, Scan.start_of_ok hpull, hholding⟩

/-! ### What follows for the registers -/

section Registers

variable (h : paged.Holding faults origin retry k stage run)

include h

/-- A row is left if and only if not all of them have been handed out. -/
theorem Holding.rows_ne_nil_iff : stage.rows ≠ [] ↔ k < pages.flatten.length := by
  cases h with
  | exhausted hall => exact iff_of_false (fun hne => hne rfl) (by omega)
  | @buffered row rows i _ _ _ _ _ _ hrows =>
    refine iff_of_true (List.cons_ne_nil row rows) ?_
    have hlength := congrArg List.length hrows
    have hle := length_flatten_take_le pages (i + 1)
    rw [List.length_drop, List.length_cons] at hlength
    omega

/-- As long as a row is left, the last page that has been fetched is the first one with which there
are more rows than have been handed out. -/
theorem Holding.isLeast (hk : k < pages.flatten.length) :
    IsLeast {n | k < (pages.take n).flatten.length} run.stats.pages := by
  cases h with
  | exhausted hall => exact absurd hk (by omega)
  | @buffered row rows i _ _ _ _ hpages hbefore hrows =>
    rw [hpages]
    constructor
    · have hlength := congrArg List.length hrows
      rw [List.length_drop, List.length_cons] at hlength
      change k < (pages.take (i + 1)).flatten.length
      omega
    · intro n hn
      by_contra hlt
      have hmono : (pages.take n).flatten.length ≤ (pages.take i).flatten.length :=
        length_flatten_take_mono (by omega)
      have hn : k < (pages.take n).flatten.length := hn
      omega

/-- When all rows have been handed out, all pages have been fetched, and the scan is at its end. -/
theorem Holding.of_total (hk : k = pages.flatten.length) :
    stage = .exhausted ∧ run.stats.pages = max 1 pages.length := by
  have hnil : ¬ stage.rows ≠ [] := fun hne => absurd (h.rows_ne_nil_iff.1 hne) (by omega)
  cases h with
  | exhausted hall hpages => exact ⟨rfl, hpages⟩
  | buffered => exact absurd (List.cons_ne_nil _ _) hnil

/-- The rows that are left are those of the pages that have been fetched. -/
theorem Holding.rows_eq : stage.rows = (pages.take run.stats.pages).flatten.drop k := by
  cases h with
  | exhausted hall hpages =>
    rw [hpages, flatten_take_of_le (by omega), hall, List.drop_length]
    rfl
  | buffered hpages _ hrows =>
    rw [hpages, hrows]
    rfl

/-- The rows that are left are rows of the last page. -/
theorem Holding.rows_suffix : stage.rows <:+ (pages[run.stats.pages - 1]?).getD [] := by
  cases h with
  | exhausted => exact List.nil_suffix
  | @buffered row rows i _ _ _ _ hpages hbefore hrows =>
    rw [flatten_take_succ, List.drop_append, List.drop_eq_nil_of_le hbefore, List.nil_append]
      at hrows
    rw [hpages, Nat.add_sub_cancel]
    change row :: rows <:+ _
    rw [← hrows]
    exact List.drop_suffix _ _

/-- There have been as many executions without a fault as pages, and each execution has asked for a
page before which no row is left. -/
theorem Holding.exists_traced :
    ∃ m, paged.Traced faults retry.delay origin m run.world ∧
      faults.pagesBefore m = run.stats.pages ∧
      ∀ j < m, (pages.take (faults.pagesBefore j)).flatten.length ≤ k := by
  cases h with
  | exhausted hall hpages htraced hdue =>
    exact ⟨_, htraced, hdue.trans hpages.symm, fun _ _ => hall ▸ length_flatten_take_le pages _⟩
  | buffered hpages hbefore _ _ hready hdue hasked =>
    exact ⟨_, hready.toTraced, hdue.trans hpages.symm, fun j hj =>
      (length_flatten_take_mono (hasked j hj)).trans hbefore⟩

theorem Holding.owed_eq : stage.owed = none := by
  cases h <;> rfl

end Registers

end Paged

/-- A request for the next row leaves the world as it is, unless the row that it takes is the only
one that is left. -/
theorem Scan.Machine.world_of_next {σ : Type} {session : Session σ} {machine after : Machine σ}
    {limit : ℕ} {answer : Except Failure (Option Record)} (hrows : machine.rows.length ≠ 1)
    (h : machine.next session limit = some (answer, after)) :
    after.run.world = machine.run.world := by
  rw [next] at h
  cases howed : machine.owed with
  | some failure =>
    rw [howed] at h
    cases h
    rfl
  | none =>
    rw [howed] at h
    dsimp only at h
    split at h
    · cases h
      rfl
    · cases hleft : machine.rows with
      | nil =>
        rw [hleft] at h
        cases h
        rw [finish]
        split <;> rfl
      | cons row rows =>
        rw [hleft] at h hrows
        cases rows with
        | nil => exact absurd rfl hrows
        | cons next rows =>
          cases h
          rfl

namespace Paged

variable {σ : Type} {session : Session σ} {statement : Statement} {pages : List (List Cells)}
  {paged : Paged session statement pages} {faults : Schedule} {origin : σ} {retry : RetryPolicy}
  {layout : RowLayout} {limit k : ℕ}

variable (retry layout) in
/-- **Pages are fetched as late as possible.**  A session serves pages, some of which may have no
rows, and no fetch gives up.  A scan that is started and asked for `k` rows answers with the first
`k` records.  As long as a row is left, the last page that has been fetched is the first one with
which there are more than `k` rows, and otherwise all pages have been fetched; an empty list of
pages counts as one page.  What is left of the rows is all of the last page, so rows of two pages
are never kept together: every execution has asked for its page after all rows before that page had
been handed out, and a further call executes something only if the row that it takes is the only one
left.  After the last record nothing is announced, and a further call only says so. -/
theorem follow_lazily (hlimit : pages.length < limit) (hmeets : paged.Meets origin faults)
    (hmend : ∀ got made failure, ¬ Schedule.Course (max 1 retry.maxAttempts) faults
      (max 1 pages.length) got made (some failure)) (tally : Tally)
    (hk : k ≤ pages.flatten.length) :
    let calls : List Scan.Call := .start limit :: List.replicate k (.next limit)
    ∃ answers, ∃ machine : Scan.Machine σ, ∃ executions : List Memory.Execution,
      let fetched := machine.run.stats.pages
      Scan.Machine.follow session calls (.initial (some statement) layout retry origin tally) =
        some (answers, machine) ∧
      (∃ outcome, Scan.follow session calls { statement := some statement, layout, retry } origin
          tally = some outcome ∧ outcome.machine = (answers, machine)) ∧
      answers = .started (.ok ()) ::
        (pages.flatten.take k).map (fun row => .taken (.ok (some (layout.record row)))) ∧
      (k < pages.flatten.length → IsLeast {n | k < (pages.take n).flatten.length} fetched) ∧
      (k = pages.flatten.length → fetched = max 1 pages.length) ∧
      machine.rows = (pages.take fetched).flatten.drop k ∧
      machine.rows <:+ (pages[fetched - 1]?).getD [] ∧
      paged.log machine.run.world = paged.log origin ++ executions ∧
      (∀ j (execution : Memory.Execution), executions[j]? = some execution → execution =
        ⟨statement, Page.start paged.mark (faults.pagesBefore j),
          paged.clock origin + retry.delay * faults.faultsBefore j⟩) ∧
      faults.pagesBefore executions.length = fetched ∧
      (∀ j < executions.length, (pages.take (faults.pagesBefore j)).flatten.length ≤ k) ∧
      (∀ other answer after, machine.next session other = some (answer, after) →
        after.run.world ≠ machine.run.world → machine.rows.length = 1) ∧
      machine.hasNext = decide (k < pages.flatten.length) ∧
      (k = pages.flatten.length →
        ∀ other, machine.next session other = some (.ok none, machine)) := by
  intro calls
  let scan : Scan := { statement := some statement, layout, retry }
  obtain ⟨stage, run, hstart, hholding⟩ := start_holding layout hlimit hmeets hmend tally
  obtain ⟨last, after, hnexts, hlast⟩ := follow_holding layout hlimit k hholding (by omega)
  rw [Nat.zero_add] at hlast
  obtain ⟨m, htraced, hdue, hasked⟩ := hlast.exists_traced
  let ended : Scan := ⟨some statement, layout, retry, last, after.stats⟩
  let answers : List Scan.Answer := .started (.ok ()) ::
    (pages.flatten.take k).map fun row => .taken (.ok (some (layout.record row)))
  have hfollow : Scan.follow session calls scan origin tally =
      some ⟨answers, ended, after.world, after.tally⟩ := by
    rw [Scan.follow, Scan.call, hstart]
    simp only [Option.map_some, Option.bind_some, hnexts, List.drop_zero, answers, ended]
  have hmachine : Scan.Machine.follow session calls (scan.machine ⟨origin, tally, {}⟩) =
      some (answers, ended.machine after) := by
    have hsound : scan.Sound := Scan.sound_initial (some statement) layout retry
    exact (Scan.follow_machine hsound origin tally).trans (congrArg _ hfollow)
  refine ⟨answers, ended.machine after, _, hmachine, ⟨_, hfollow, rfl⟩, rfl, hlast.isLeast,
    fun htotal => (hlast.of_total htotal).2, hlast.rows_eq, hlast.rows_suffix, htraced.log_eq, ?_,
    ?_, ?_, ?_, ?_, ?_⟩
  · intro j execution h
    exact eq_of_getElem?_executions h
  · rw [length_executions]
    exact hdue
  · rw [length_executions]
    exact hasked
  · intro other answer ending hnext hworld
    by_contra hrows
    exact hworld (Scan.Machine.world_of_next hrows hnext)
  · have howed : (ended.machine after).owed = none := hlast.owed_eq
    rw [Scan.Machine.hasNext, howed, Option.isSome_none, Bool.or_false, Bool.eq_iff_iff,
      Bool.not_eq_true', List.isEmpty_eq_false_iff, decide_eq_true_iff]
    exact hlast.rows_ne_nil_iff
  · intro htotal other
    obtain ⟨rfl, -⟩ := hlast.of_total htotal
    rfl

/-- After one of three rows the scan has gone over a page without rows and an execution that finds
no host, to the last page, all of which is left. -/
theorem follow_lazily_three_pages :
    let row (id : UInt8) : Cells := .ofList [("id", some [id])]
    let node : Memory.Node :=
      { store := .fixed [[row 1], [], [row 2, row 3]], faults := [none, some (.noHost "")] }
    ∃ answers, ∃ machine : Scan.Machine Memory.Node,
      Scan.Machine.follow Memory.Node.session [.start 4, .next 4]
          (.initial (some ⟨"", [], 1⟩) ⟨["id"], []⟩ { maxAttempts := 2, delay := 10 } node {}) =
        some (answers, machine) ∧
      IsLeast {n | 1 < ([[row 1], [], [row 2, row 3]].take n).flatten.length}
        machine.run.stats.pages ∧
      machine.rows = [row 2, row 3] ∧ machine.hasNext = true := by
  intro row node
  let pages : List (List Cells) := [[row 1], [], [row 2, row 3]]
  let faults : Schedule := fun n => (node.faults[n]?).join
  have hmeets : (Memory.Node.paged (Memory.Store.serves_fixed pages ⟨"", [], 1⟩)).Meets node
      faults := ⟨rfl, fun _ => rfl⟩
  have hsecond : Schedule.Recovers 2 (faults.drop 1) 1 :=
    ⟨by decide, Schedule.Waits.succ rfl rfl (Schedule.waits_zero _), rfl⟩
  have hthird : Schedule.Course 2 (faults.drop 3) 1 1 1 none :=
    .page (Schedule.recovers_zero (by decide) rfl) (.done _)
  have hcourse : Schedule.Course 2 faults 3 3 4 none :=
    .page (Schedule.recovers_zero (by decide) rfl) (.page hsecond hthird)
  obtain ⟨answers, machine, _, hfollow, -, -, hleast, -, hrows, -, -, -, -, -, -, hhas, -⟩ :=
    follow_lazily { maxAttempts := 2, delay := 10 } ⟨["id"], []⟩
      (show pages.length < 4 by decide) hmeets (fun got made => hcourse.not_broken rfl) {}
      (show 1 ≤ pages.flatten.length by decide)
  have hfetched := hleast (by decide)
  have hthree : ∀ n ≤ 3, 1 < (pages.take n).flatten.length → n = 3 := by decide
  rw [hthree _ (hfetched.2 (by decide)) hfetched.1] at hrows
  exact ⟨answers, machine, hfollow, hfetched, hrows, hhas⟩

end Paged

end RingScan
