import RingScan.Proofs.Scan.Paged

/-!
# Histories of scans

A history is what a scan answers when it is started and then asked for the next row again and again,
whatever it has answered before.  While a session serves pages, every history follows from the
course that the fetches take: first the rows of the pages that are received, then, if a fetch gives
up, its failure, and after that the same answer for ever.

## Main definitions

* `Scan.nexts`, `Scan.history`: the answers to a number of calls.
* `Scan.answerAt`: the answer to a call that comes after so many others.

## Main statements

* `Paged.next_row`: one call, as long as a row is left.
* `Paged.nexts_standing`: any number of calls.
* `Paged.history_course`: every history of a scan whose session serves pages.
-/

namespace RingScan

namespace Scan

variable {σ : Type} (session : Session σ)

/-- Takes the next row a number of times. -/
def nexts (limit : ℕ) : ℕ → Scan → σ → Tally →
    Option (Outcome σ (List (Except Failure (Option Record))))
  | 0, scan, world, tally => some ⟨[], scan, world, tally⟩
  | count + 1, scan, world, tally =>
    match scan.next session limit world tally with
    | none => none
    | some first =>
      (nexts limit count first.scan first.world first.tally).map fun rest =>
        { rest with answer := first.answer :: rest.answer }

/-- Starts a scan and takes the next row a number of times, whatever the start has answered. -/
def history (limit count : ℕ) (scan : Scan) (world : σ) (tally : Tally) :
    Option (Outcome σ (Except Failure Unit × List (Except Failure (Option Record)))) :=
  match scan.start session limit world tally with
  | none => none
  | some first =>
    (nexts session limit count first.scan first.world first.tally).map fun rest =>
      { rest with answer := (first.answer, rest.answer) }

/-- The answer to the call that comes after `i` others, for a scan that has the given records to
hand out and then a failure to report, if any. -/
def answerAt (records : List Record) (failure? : Option Failure) (i : ℕ) :
    Except Failure (Option Record) :=
  match records[i]?, failure? with
  | some record, _ => .ok (some record)
  | none, none => .ok none
  | none, some failure => .error (if i = records.length then failure else .aborted)

/-- The answers to the start and to `count` calls after it, for a scan that finds the given records
and then fails, if at all.  A failure before the first record is told by the start. -/
def answers : List Record → Option Failure → ℕ →
    Except Failure Unit × List (Except Failure (Option Record))
  | [], some failure, count => (.error failure, List.replicate count (.error .aborted))
  | records, failure?, count => (.ok (), (List.range count).map (answerAt records failure?))

theorem answers_of_ok {records : List Record} {failure? : Option Failure}
    (h : records = [] → failure? = none) (count : ℕ) :
    answers records failure? count =
      (.ok (), (List.range count).map (answerAt records failure?)) := by
  cases records with
  | cons => rfl
  | nil => rw [h rfl]; rfl

theorem answerAt_cons_succ (record : Record) (records : List Record)
    (failure? : Option Failure) (i : ℕ) :
    answerAt (record :: records) failure? (i + 1) = answerAt records failure? i := by
  simp only [answerAt, List.getElem?_cons_succ, List.length_cons, Nat.add_right_cancel_iff]

/-- The first answer is the first record, and the other ones are those without it. -/
theorem map_answerAt_cons (record : Record) (records : List Record) (failure? : Option Failure)
    (count : ℕ) :
    (List.range (count + 1)).map (answerAt (record :: records) failure?) =
      .ok (some record) :: (List.range count).map (answerAt records failure?) := by
  rw [List.range_succ_eq_map, List.map_cons, List.map_map]
  congr 1
  exact List.map_congr_left fun i _ => answerAt_cons_succ record records failure? i

theorem map_answerAt_nil_none (count : ℕ) :
    (List.range count).map (answerAt [] none) = List.replicate count (.ok none) := by
  rw [show answerAt [] none = Function.const ℕ (.ok none) by funext i; rfl, List.map_const,
    List.length_range]

/-- A failure is told once. -/
theorem map_answerAt_nil_some (failure : Failure) (count : ℕ) :
    (List.range (count + 1)).map (answerAt [] (some failure)) =
      .error failure :: List.replicate count (.error .aborted) := by
  rw [List.range_succ_eq_map, List.map_cons, List.map_map]
  congr 1
  rw [show answerAt [] (some failure) ∘ Nat.succ = Function.const ℕ (.error .aborted) by
    funext i; rfl, List.map_const, List.length_range]

theorem answerAt_none (records : List Record) (i : ℕ) :
    answerAt records none i = .ok records[i]? := by
  cases h : records[i]? with
  | none => simp only [answerAt, h]
  | some record => simp only [answerAt, h]

variable {session} {limit : ℕ} {statement : Statement} {layout : RowLayout} {retry : RetryPolicy}
  {stats : Stats} {world : σ} {tally : Tally} {stage : Stage} {run : Run σ}

theorem start_of_ok
    (h : pull session retry statement limit none ⟨world, tally, stats⟩ = some (.ok stage, run)) :
    Scan.start session limit ⟨some statement, layout, retry, .unstarted, stats⟩ world tally =
      some ⟨.ok (), ⟨some statement, layout, retry, stage, run.stats⟩, run.world, run.tally⟩ := by
  simp only [start, h, outcome]

/-- A failure of the first fetch is told at once, so it is not owed any more. -/
theorem start_of_error {failure : Failure}
    (h : pull session retry statement limit none ⟨world, tally, stats⟩ =
      some (.error failure, run)) :
    Scan.start session limit ⟨some statement, layout, retry, .unstarted, stats⟩ world tally =
      some ⟨.error failure, ⟨some statement, layout, retry, .failed none, run.stats⟩, run.world,
        run.tally⟩ := by
  simp only [start, h, outcome]

/-- The last row of a page is handed out with the pages after it fetched. -/
theorem next_of_pull {row : Cells} {continuation : Bytes}
    (h : pull session retry statement limit (some continuation)
        ((⟨world, tally, stats⟩ : Run σ).addRow (layout.record row).byteCount) =
      some (stage.landing, run)) :
    Scan.next session limit
        ⟨some statement, layout, retry, .buffered row [] (some continuation), stats⟩ world tally =
      some ⟨.ok (some (layout.record row)), ⟨some statement, layout, retry, stage, run.stats⟩,
        run.world, run.tally⟩ := by
  simp only [next, refill, h]
  cases stage with
  | failed owed => cases owed <;> rfl
  | _ => rfl

end Scan

namespace Paged

variable {σ : Type} {session : Session σ} {statement : Statement} {pages : List (List Cells)}
  {paged : Paged session statement pages} {faults : Schedule} {origin : σ} {retry : RetryPolicy}
  {layout : RowLayout} {total limit : ℕ} {failure? : Option Failure} {stats : Stats} {world : σ}
  {tally : Tally}

/-! ### One call -/

variable (layout stats tally) in
/-- A scan with rows to hand out hands out the first of them. -/
theorem next_row {row : Cells} {rows : List Cells} {stage : Scan.Stage}
    (hlimit : pages.length < limit)
    (h : paged.Standing faults origin retry total failure? (row :: rows) stage world) :
    ∃ stage' stats' world' tally',
      Scan.next session limit ⟨some statement, layout, retry, stage, stats⟩ world tally =
        some ⟨.ok (some (layout.record row)), ⟨some statement, layout, retry, stage', stats'⟩,
          world', tally'⟩ ∧
      paged.Standing faults origin retry total failure? rows stage' world' := by
  cases h with
  | @buffered _ rows i count got m made _ hi hcount hready hdue hcourse htotal =>
    cases rows with
    | cons next rows =>
      exact ⟨_, _, _, _, rfl, .buffered hi hcount hready hdue hcourse htotal⟩
    | nil =>
      obtain ⟨i, rfl⟩ : ∃ n, i = n + 1 := ⟨i - 1, by omega⟩
      rw [List.nil_append, resume_of_pos hi hcount]
      by_cases hzero : count = 0
      · -- The page was the last one, so there is nothing left to come.
        subst hzero
        cases hcourse
        rw [if_pos rfl]
        exact ⟨_, _, _, _, rfl, by
          simpa only [rowsFrom_zero, ← htotal] using .exhausted rfl hready.toTraced⟩
      · obtain ⟨stage', run', hpull, hstanding⟩ := pull_course hcourse (Nat.pos_of_ne_zero hzero)
          (show count ≤ limit by omega) hcount hdue
          (show paged.Ready faults retry.delay origin m
            (Run.addRow ⟨world, tally, stats⟩ (layout.record row).byteCount).world from hready)
        rw [if_neg hzero]
        exact ⟨_, _, _, _, Scan.next_of_pull hpull, htotal ▸ hstanding⟩

variable (layout stats) in
/-- A scan has something to report as long as rows or a failure are still to come. -/
theorem Standing.hasNext_eq {rows : List Cells} {stage : Scan.Stage}
    (h : paged.Standing faults origin retry total failure? rows stage world) :
    Scan.hasNext ⟨some statement, layout, retry, stage, stats⟩ =
      decide (0 < rows.length + failure?.toList.length) := by
  cases h with
  | buffered => exact (decide_eq_true (by simp only [List.length_cons]; omega)).symm
  | exhausted hnone => subst hnone; rfl
  | owed hsome => subst hsome; rfl

/-- Only executions of the course have been made, and all of them once no row is left. -/
theorem Standing.exists_traced {rows : List Cells} {stage : Scan.Stage}
    (h : paged.Standing faults origin retry total failure? rows stage world) :
    ∃ m ≤ total, paged.Traced faults retry.delay origin m world ∧ (rows = [] → m = total) := by
  cases h with
  | @buffered _ _ _ _ _ m made _ _ _ hready _ _ htotal =>
    exact ⟨m, by omega, hready.toTraced, fun hnil => absurd hnil (List.cons_ne_nil _ _)⟩
  | exhausted _ htraced => exact ⟨total, Nat.le_refl total, htraced, fun _ => rfl⟩
  | owed _ htraced => exact ⟨total, Nat.le_refl total, htraced, fun _ => rfl⟩

/-- A failure that is owed is all that is still to come. -/
theorem Standing.of_failed {rows : List Cells} {failure : Failure}
    (h : paged.Standing faults origin retry total failure? rows (.failed (some failure)) world) :
    rows = [] ∧ failure? = some failure ∧ paged.Traced faults retry.delay origin total world := by
  cases h with
  | owed hsome htraced => exact ⟨rfl, hsome, htraced⟩

/-- A stage that the start has accepted still has a row to hand out, or no failure to tell. -/
theorem Standing.landing_of_ok {rows : List Cells} {stage : Scan.Stage}
    (h : paged.Standing faults origin retry total failure? rows stage world)
    (howed : ∀ failure, stage ≠ .failed (some failure)) :
    stage.landing = .ok stage ∧ (rows = [] → failure? = none) := by
  cases h with
  | buffered => exact ⟨rfl, fun hnil => absurd hnil (List.cons_ne_nil _ _)⟩
  | exhausted hnone => exact ⟨rfl, fun _ => hnone⟩
  | owed => exact absurd rfl (howed _)

/-! ### Any number of calls -/

/-- A scan that has told its failure only tells that it failed before. -/
theorem nexts_told (count : ℕ) :
    Scan.nexts session limit count ⟨some statement, layout, retry, .failed none, stats⟩ world
        tally =
      some ⟨List.replicate count (.error .aborted),
        ⟨some statement, layout, retry, .failed none, stats⟩, world, tally⟩ := by
  induction count with
  | zero => rfl
  | succ count ih =>
    rw [Scan.nexts]
    simp only [Scan.next, ih, Option.map_some, List.replicate_succ]

/-- A scan without anything left only says so. -/
theorem nexts_exhausted (count : ℕ) :
    Scan.nexts session limit count ⟨some statement, layout, retry, .exhausted, stats⟩ world tally =
      some ⟨List.replicate count (.ok none),
        ⟨some statement, layout, retry, .exhausted, stats⟩, world, tally⟩ := by
  induction count with
  | zero => rfl
  | succ count ih =>
    rw [Scan.nexts]
    simp only [Scan.next, ih, Option.map_some, List.replicate_succ]

variable (layout stats tally) in
/-- Calls from a stage with rows and perhaps a failure to come: the rows are handed out in order,
then the failure is told, and all executions have been made when the last row is. -/
theorem nexts_standing (hlimit : pages.length < limit) (count : ℕ) {rows : List Cells}
    {stage : Scan.Stage}
    (h : paged.Standing faults origin retry total failure? rows stage world) :
    ∃ ending, Scan.nexts session limit count ⟨some statement, layout, retry, stage, stats⟩ world
        tally = some ending ∧
      ending.answer =
        (List.range count).map (Scan.answerAt (rows.map layout.record) failure?) ∧
      ending.scan.hasNext = decide (count < rows.length + failure?.toList.length) ∧
      ∃ m ≤ total, paged.Traced faults retry.delay origin m ending.world ∧
        (rows.length ≤ count → m = total) := by
  induction count generalizing rows stage stats world tally with
  | zero =>
    obtain ⟨m, hm, htraced, htotal⟩ := h.exists_traced
    exact ⟨_, rfl, rfl, h.hasNext_eq layout stats, m, hm, htraced, fun hle =>
      htotal (List.length_eq_zero_iff.1 (Nat.le_zero.1 hle))⟩
  | succ count ih =>
    cases rows with
    | cons row rows =>
      obtain ⟨stage', stats', world', tally', hnext, hstanding⟩ :=
        next_row layout stats tally hlimit h
      obtain ⟨ending, hrest, hanswer, hhas, m, hm, htraced, htotal⟩ :=
        ih stats' tally' hstanding
      refine ⟨{ ending with answer := .ok (some (layout.record row)) :: ending.answer }, ?_, ?_, ?_,
        m, hm, htraced, fun hle => htotal (Nat.le_of_succ_le_succ hle)⟩
      · rw [Scan.nexts, hnext]
        simp only [hrest, Option.map_some]
      · simp only [hanswer, List.map_cons, Scan.map_answerAt_cons]
      · simp only [hhas, List.length_cons]
        exact decide_eq_decide.2 (by omega)
    | nil =>
      cases h with
      | exhausted hnone htraced =>
        subst hnone
        refine ⟨_, nexts_exhausted (count + 1), ?_, ?_, total, Nat.le_refl total, htraced,
          fun _ => rfl⟩
        · exact (Scan.map_answerAt_nil_none (count + 1)).symm
        · rfl
      | @owed failure _ hsome htraced =>
        subst hsome
        refine ⟨⟨.error failure :: List.replicate count (.error .aborted),
          ⟨some statement, layout, retry, .failed none, stats⟩, world, tally⟩, ?_, ?_, ?_, total,
          Nat.le_refl total, htraced, fun _ => rfl⟩
        · rw [Scan.nexts]
          simp only [Scan.next, nexts_told, Option.map_some]
        · exact (Scan.map_answerAt_nil_some failure count).symm
        · exact (decide_eq_false (by simp)).symm

/-! ### From the start -/

/-- What the start of a scan leaves behind when it tells `failure` or nothing: in the one case the
scan is over, and in the other it has a row to hand out or no failure to tell. -/
inductive Begun (paged : Paged session statement pages) (faults : Schedule) (origin : σ)
    (retry : RetryPolicy) (made : ℕ) :
    Option Failure → List Cells → Except Failure Unit → Scan.Stage → σ → Prop
  | accepted {failure? : Option Failure} {rows : List Cells} {stage : Scan.Stage} {world : σ}
      (hstanding : paged.Standing faults origin retry made failure? rows stage world)
      (hnone : rows = [] → failure? = none) :
      Begun paged faults origin retry made failure? rows (.ok ()) stage world
  | refused {failure : Failure} {world : σ}
      (htraced : paged.Traced faults retry.delay origin made world) :
      Begun paged faults origin retry made (some failure) [] (.error failure) (.failed none) world

variable (layout stats tally) in
/-- The start of a scan whose session serves pages.  The course that the fetches take says which
pages are received and which failure ends the scan, if any. -/
theorem start_course {got made : ℕ} (hlimit : pages.length < limit)
    (hmeets : paged.Meets origin faults)
    (hcourse : Schedule.Course (max 1 retry.maxAttempts) faults (max 1 pages.length) got made
      failure?) :
    ∃ answer stage stats' world' tally', Scan.start session limit
        ⟨some statement, layout, retry, .unstarted, stats⟩ origin tally =
          some ⟨answer, ⟨some statement, layout, retry, stage, stats'⟩, world', tally'⟩ ∧
      Begun paged faults origin retry made failure? (rowsFrom pages 0 got) answer stage world' := by
  have hready : paged.Ready faults retry.delay origin 0
      (⟨origin, tally, stats⟩ : Run σ).world := Ready.zero hmeets
  obtain ⟨stage, run, hpull, hstanding⟩ := pull_course hcourse (by omega)
    (show max 1 pages.length ≤ limit by omega) (Nat.zero_add _) faults.pagesBefore_zero hready
  rw [Nat.zero_add] at hstanding
  by_cases howed : ∃ failure, stage = .failed (some failure)
  · obtain ⟨failure, rfl⟩ := howed
    obtain ⟨hrows, rfl, htraced⟩ := hstanding.of_failed
    exact ⟨_, _, _, _, _, Scan.start_of_error hpull, hrows ▸ .refused htraced⟩
  · obtain ⟨hlanding, hnone⟩ := hstanding.landing_of_ok fun failure heq => howed ⟨failure, heq⟩
    rw [hlanding] at hpull
    exact ⟨_, _, _, _, _, Scan.start_of_ok hpull, .accepted hstanding hnone⟩

variable (layout stats tally) in
/-- Every history of a scan whose session serves pages. -/
theorem history_course {got made : ℕ} (hlimit : pages.length < limit)
    (hmeets : paged.Meets origin faults)
    (hcourse : Schedule.Course (max 1 retry.maxAttempts) faults (max 1 pages.length) got made
      failure?) (count : ℕ) :
    ∃ ending, Scan.history session limit count
        ⟨some statement, layout, retry, .unstarted, stats⟩ origin tally = some ending ∧
      ending.answer = Scan.answers ((rowsFrom pages 0 got).map layout.record) failure? count ∧
      ending.scan.hasNext = decide (rowsFrom pages 0 got ≠ [] ∧
        count < (rowsFrom pages 0 got).length + failure?.toList.length) ∧
      ∃ m ≤ made, paged.Traced faults retry.delay origin m ending.world ∧
        ((rowsFrom pages 0 got).length ≤ count → m = made) := by
  obtain ⟨answer, stage, stats', world', tally', hstart, hbegun⟩ :=
    start_course layout stats tally hlimit hmeets hcourse
  generalize rowsFrom pages 0 got = rows at hbegun ⊢
  cases hbegun with
  | @refused failure _ htraced =>
    refine ⟨⟨(.error failure, List.replicate count (.error .aborted)),
      ⟨some statement, layout, retry, .failed none, stats'⟩, world', tally'⟩, ?_, rfl, ?_,
      made, Nat.le_refl made, htraced, fun _ => rfl⟩
    · rw [Scan.history, hstart]
      simp only [nexts_told, Option.map_some]
    · exact (decide_eq_false fun h => h.1 rfl).symm
  | accepted hstanding hnone =>
    obtain ⟨ending, hrest, hanswer, hhas, htrace⟩ :=
      nexts_standing layout stats' tally' hlimit count hstanding
    refine ⟨{ ending with answer := (.ok (), ending.answer) }, ?_, ?_, ?_, htrace⟩
    · rw [Scan.history, hstart]
      simp only [hrest, Option.map_some]
    · rw [Scan.answers_of_ok, hanswer]
      simpa only [List.map_eq_nil_iff] using hnone
    · refine hhas.trans (decide_eq_decide.2 ⟨fun h => ⟨?_, h⟩, fun h => h.2⟩)
      rintro rfl
      simp [hnone rfl] at h

end Paged

end RingScan
