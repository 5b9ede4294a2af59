import RingScan.Proofs.Scan.Calls

/-!
# Sessions that show other sessions

A session may act on worlds that hold more than those of another session, such as a record of its
executions.  As long as it answers as the other one does, and changes what is shown of its worlds as
that one does, scans answer the same over both, and leave worlds behind that show the same.  What
the first execution of a statement brings about in the world of a session, and later ones keep,
holds after a scan of the statement.

## Main definitions

* `Session.Shows`: a session shows another one.

## Main statements

* `Session.Shows.follow`: calls of a scan are answered the same by a session that shows another one.
* `Scan.pull_reaches`: what the first execution reaches and later ones keep, pulling pages reaches.
-/

namespace RingScan

variable {τ σ : Type}

/-- A session answers as another one does, and changes what `view` shows of its worlds as that one
does. -/
structure Session.Shows (upper : Session τ) (view : τ → σ) (lower : Session σ) : Prop where
  execute_eq : ∀ statement from? world,
    (upper.execute statement from? world).map id view = lower.execute statement from? (view world)
  pause_eq : ∀ delay world, view (upper.pause delay world) = lower.pause delay (view world)

/-- A run with what is shown of its world. -/
def Run.through (view : τ → σ) (run : Run τ) : Run σ :=
  ⟨view run.world, run.tally, run.stats⟩

/-- The outcome of a call with what is shown of its world. -/
def Scan.Outcome.through {α : Type} (view : τ → σ) (outcome : Outcome τ α) : Outcome σ α :=
  ⟨outcome.answer, outcome.scan, view outcome.world, outcome.tally⟩

/-! ### Fetches -/

namespace Session.Shows

variable {upper : Session τ} {view : τ → σ} {lower : Session σ} (h : upper.Shows view lower)

include h

theorem answer_eq (statement : Statement) (from? : Option Bytes) (world : τ) :
    (lower.execute statement from? (view world)).1 = (upper.execute statement from? world).1 := by
  rw [← h.execute_eq]
  rfl

theorem attempt (statement : Statement) (from? : Option Bytes) (run : Run τ) :
    (lower.attempt statement from? (run.through view)).2 =
      (upper.attempt statement from? run).2.through view := by
  have hworld := congrArg Prod.snd (h.execute_eq statement from? run.world)
  simp only [Session.attempt, Run.through, Run.addExecution] at hworld ⊢
  rw [← hworld]
  rfl

theorem rest (delay : ℕ) (run : Run τ) :
    lower.rest delay (run.through view) = (upper.rest delay run).through view := by
  simp only [Session.rest, Run.through, Run.addRetry, h.pause_eq]

theorem fetchWithin (statement : Statement) (delay : ℕ) (from? : Option Bytes) (left made : ℕ)
    (run : Run τ) :
    (upper.fetchWithin statement delay from? left made run).map id (Run.through view) =
      lower.fetchWithin statement delay from? left made (run.through view) := by
  -- A fetch makes the attempts of the fetch that is shown.
  refine fetchWithin_induction (motive := fun left made run result =>
    result.map id (Run.through view) =
      lower.fetchWithin statement delay from? left made (run.through view))
    ?page ?fault ?retry left made run
  case page =>
    intro left made run page hanswer
    rw [fetchWithin_of_ok ((h.answer_eq ..).trans hanswer), h.attempt]
    rfl
  case fault =>
    intro left made run fault hanswer hlast
    rw [fetchWithin_of_fault ((h.answer_eq ..).trans hanswer) hlast, h.attempt]
    rfl
  case retry =>
    intro left made run fault result hanswer hfault hresult
    rw [fetchWithin_of_transient ((h.answer_eq ..).trans hanswer) hfault, h.attempt, h.rest]
    exact hresult

theorem fetch (statement : Statement) (retry : RetryPolicy) (from? : Option Bytes) (run : Run τ) :
    (upper.fetch retry statement from? run).map id (Run.through view) =
      lower.fetch retry statement from? (run.through view) :=
  h.fetchWithin ..

/-! ### Calls of a scan -/

theorem pull (statement : Statement) (retry : RetryPolicy) (limit : ℕ) (from? : Option Bytes)
    (run : Run τ) :
    (Scan.pull upper retry statement limit from? run).map (Prod.map id (Run.through view)) =
      Scan.pull lower retry statement limit from? (run.through view) := by
  induction limit generalizing from? run with
  | zero => rfl
  | succ limit ih =>
    have hplain := h.fetch statement retry from? run
    rcases hfetch : upper.fetch retry statement from? run with
      ⟨failure | ⟨_ | ⟨row, rows⟩, continuation⟩, fetched⟩ <;> rw [hfetch] at hplain
    · rw [Scan.pull_of_error hfetch, Scan.pull_of_error hplain.symm]
      rfl
    · cases continuation with
      | none =>
        rw [Scan.pull_of_last hfetch, Scan.pull_of_last hplain.symm]
        rfl
      | some continuation =>
        rw [Scan.pull_of_empty hfetch, Scan.pull_of_empty hplain.symm]
        exact ih (some continuation) fetched
    · rw [Scan.pull_of_row hfetch, Scan.pull_of_row hplain.symm]
      rfl

/-- A start answers the same. -/
theorem start (limit : ℕ) (scan : Scan) (world : τ) (tally : Tally) :
    (scan.start upper limit world tally).map (Scan.Outcome.through view) =
      scan.start lower limit (view world) tally := by
  obtain ⟨statement, layout, retry, stage, stats⟩ := scan
  cases stage with
  | buffered | exhausted | failed => cases statement <;> rfl
  | unstarted =>
    cases statement with
    | none => rfl
    | some statement =>
      have hplain : Scan.pull lower retry statement limit none ⟨view world, tally, stats⟩ =
          (Scan.pull upper retry statement limit none ⟨world, tally, stats⟩).map
            (Prod.map id (Run.through view)) :=
        (h.pull statement retry limit none ⟨world, tally, stats⟩).symm
      simp only [Scan.start, hplain]
      rcases Scan.pull upper retry statement limit none ⟨world, tally, stats⟩ with
        _ | ⟨failure | stage, run⟩ <;> rfl

theorem refill (limit : ℕ) (scan : Scan) (continuation : Option Bytes) (run : Run τ) :
    (scan.refill upper limit continuation run).map (Prod.map id (Run.through view)) =
      scan.refill lower limit continuation (run.through view) := by
  obtain ⟨statement, layout, retry, stage, stats⟩ := scan
  cases statement with
  | none => rfl
  | some statement =>
    cases continuation with
    | none => rfl
    | some continuation =>
      simp only [Scan.refill, ← h.pull]
      rcases Scan.pull upper retry statement limit (some continuation) run with
        _ | ⟨failure | stage, after⟩ <;> rfl

/-- A request for the next row is answered the same. -/
theorem next (limit : ℕ) (scan : Scan) (world : τ) (tally : Tally) :
    (scan.next upper limit world tally).map (Scan.Outcome.through view) =
      scan.next lower limit (view world) tally := by
  obtain ⟨statement, layout, retry, stage, stats⟩ := scan
  cases stage with
  | unstarted | exhausted => rfl
  | failed owed => cases owed <;> rfl
  | buffered row rows continuation =>
    cases rows with
    | cons => rfl
    | nil =>
      let scan : Scan := ⟨statement, layout, retry, .buffered row [] continuation, stats⟩
      let run : Run τ := Run.addRow ⟨world, tally, stats⟩ (layout.record row).byteCount
      have hplain : scan.refill lower limit continuation
            (Run.addRow ⟨view world, tally, stats⟩ (layout.record row).byteCount) =
          (scan.refill upper limit continuation run).map (Prod.map id (Run.through view)) :=
        (h.refill limit scan continuation run).symm
      simp only [Scan.next, hplain, scan, run]
      cases scan.refill upper limit continuation run <;> rfl

theorem call (scan : Scan) (call : Scan.Call) (world : τ) (tally : Tally) :
    (scan.call upper call world tally).map (Scan.Outcome.through view) =
      scan.call lower call (view world) tally := by
  cases call with
  | start limit =>
    simp only [Scan.call, ← h.start, Option.map_map]
    rfl
  | next limit =>
    simp only [Scan.call, ← h.next, Option.map_map]
    rfl

/-- **A scan sees no more than what is shown**: calls that follow each other are answered the same,
and leave the same scan and counters behind, and worlds that show the same. -/
theorem follow (calls : List Scan.Call) (scan : Scan) (world : τ) (tally : Tally) :
    (Scan.follow upper calls scan world tally).map (Scan.Outcome.through view) =
      Scan.follow lower calls scan (view world) tally := by
  induction calls generalizing scan world tally with
  | nil => rfl
  | cons call calls ih =>
    rw [Scan.follow, Scan.follow, ← h.call]
    cases scan.call upper call world tally with
    | none => rfl
    | some first =>
      have hrest := ih first.scan first.world first.tally
      simp only [Option.bind_some, Option.map_some, Scan.Outcome.through, Option.map_map]
        at hrest ⊢
      rw [← hrest, Option.map_map]
      rfl

end Session.Shows

/-! ### What executions reach -/

section Reaches

variable {session : Session σ} {statement : Statement} {motive : σ → Prop}

/-- A fetch reaches what its first execution reaches and further executions of the statement and
pauses keep. -/
theorem Session.fetchWithin_reaches
    (hexecute : ∀ {world} from?, motive world → motive (session.execute statement from? world).2)
    (hpause : ∀ {world} delay, motive world → motive (session.pause delay world))
    (delay : ℕ) (from? : Option Bytes) (left made : ℕ) (run : Run σ)
    (hfirst : motive (session.execute statement from? run.world).2) :
    motive (session.fetchWithin statement delay from? left made run).2.world := by
  revert hfirst
  refine fetchWithin_induction (motive := fun _ _ run result =>
    motive (session.execute statement from? run.world).2 → motive result.2.world)
    ?page ?fault ?retry left made run
  case page => exact fun _ => id
  case fault => exact fun _ _ => id
  case retry => exact fun _ _ hrest hfirst => hrest (hexecute from? (hpause delay hfirst))

namespace Scan

/-- Pulling the pages of a statement reaches what its first execution reaches and further executions
and pauses keep. -/
theorem pull_reaches
    (hexecute : ∀ {world} from?, motive world → motive (session.execute statement from? world).2)
    (hpause : ∀ {world} delay, motive world → motive (session.pause delay world))
    {retry : RetryPolicy} {limit : ℕ} {from? : Option Bytes} {run : Run σ}
    {result : Except Failure Stage × Run σ}
    (h : pull session retry statement limit from? run = some result)
    (hfirst : motive (session.execute statement from? run.world).2) : motive result.2.world := by
  have hfetched {from? : Option Bytes} {run after : Run σ} {answer : Except Failure Page}
      (hfetch : session.fetch retry statement from? run = (answer, after))
      (hfirst : motive (session.execute statement from? run.world).2) : motive after.world := by
    have hreached := Session.fetchWithin_reaches hexecute hpause retry.delay from?
      (retry.maxAttempts - 1) 0 run hfirst
    rwa [show session.fetchWithin statement retry.delay from? (retry.maxAttempts - 1) 0 run =
      (answer, after) from hfetch] at hreached
  revert hfirst
  refine pull_induction (motive := fun from? run result =>
    motive (session.execute statement from? run.world).2 → motive result.2.world)
    hfetched hfetched hfetched ?empty h
  case empty => exact fun hfetch hrest hfirst => hrest (hexecute _ (hfetched hfetch hfirst))

/-- Pulling pages takes a scan to a row or to its end. -/
theorem stage_of_pull {retry : RetryPolicy} {limit : ℕ} {from? : Option Bytes} {run after : Run σ}
    {stage : Stage} (h : pull session retry statement limit from? run = some (.ok stage, after)) :
    (∃ row rows continuation, stage = .buffered row rows continuation) ∨ stage = .exhausted := by
  refine pull_induction (motive := fun _ _ result => ∀ stage, result.1 = .ok stage →
    (∃ row rows continuation, stage = .buffered row rows continuation) ∨ stage = .exhausted)
    (fun _ _ => nofun) ?_ ?_ (fun _ hrest => hrest) h stage rfl
  · rintro _ _ row rows continuation _ - _ ⟨⟩
    exact .inl ⟨row, rows, continuation, rfl⟩
  · rintro _ _ _ - _ ⟨⟩
    exact .inr rfl

end Scan

end Reaches

end RingScan
