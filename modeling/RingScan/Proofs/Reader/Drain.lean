import RingScan.Proofs.Scan.History
import RingScan.Reader.Basic

/-!
# Drained readers

A reader is drained by taking rows as long as it has something to report.  If its session serves
pages, this ends after the last row that the fetches bring in, or after the failure that follows it.

## Main statements

* `Reader.drain_standing`: what draining a reader answers.
-/

namespace RingScan.Reader

variable {ω ι : Type} {services : Services ω ι} {limit : ℕ}

/-! ### Opening -/

/-- A reader is open when its scan has been started. -/
theorem start_of_prepare {job : Job} {split : Split} {reader : Reader ι} {before after : Shared ω ι}
    {scan : Scan} {world : ω} {tally : Tally}
    (h : prepare services job split before = (.ok reader, after))
    (hstart : reader.scan.start (services.cluster.session reader.connection) limit after.world
      after.tally.addScan = some ⟨.ok (), scan, world, tally⟩) :
    Reader.start services limit job split before =
      some (.ok { reader with scan }, { after with world, tally }) := by
  simp only [start, h, hstart, continued]

/-! ### One row -/

theorem next_of_record {reader : Reader ι} {shared : Shared ω ι} {record : Record} {scan : Scan}
    {world : ω} {tally : Tally}
    (h : reader.scan.next (services.cluster.session reader.connection) limit shared.world
      shared.tally = some ⟨.ok (some record), scan, world, tally⟩) :
    reader.next services limit shared =
      some (.ok record, { reader with scan }, { shared with world, tally }) := by
  simp only [next, take, h, Option.map_some, continued]

theorem next_of_failure {reader : Reader ι} {shared : Shared ω ι} {failure : Failure} {scan : Scan}
    {world : ω} {tally : Tally}
    (h : reader.scan.next (services.cluster.session reader.connection) limit shared.world
      shared.tally = some ⟨.error failure, scan, world, tally⟩) :
    reader.next services limit shared =
      some (.error failure, { reader with scan }, { shared with world, tally }) := by
  simp only [next, take, h, Option.map_some, continued]

theorem drain_of_not_hasNext {reader : Reader ι} (h : reader.hasNext = false) (count : ℕ)
    (shared : Shared ω ι) :
    reader.drain services limit (count + 1) shared = some ([], reader, shared) := by
  simp only [drain, h, Bool.false_eq_true, if_false]

theorem drain_of_next {reader reader' : Reader ι} {shared shared' : Shared ω ι}
    {item : Except Failure Record} (h : reader.hasNext = true)
    (hnext : reader.next services limit shared = some (item, reader', shared')) (count : ℕ) :
    reader.drain services limit (count + 1) shared =
      (reader'.drain services limit count shared').map fun (items, rest) =>
        (item :: items, rest) := by
  simp only [drain, h, if_true, hnext]

/-! ### All rows -/

variable {statement : Statement} {pages : List (List Cells)} {faults : Schedule} {origin : ω}
  {total : ℕ} {failure? : Option Failure} {connection : ι}
  {paged : Paged (services.cluster.session connection) statement pages}

/-- A reader from which given rows and perhaps a failure are still to come answers with exactly
these when it is drained. -/
theorem drain_standing {retry : RetryPolicy} {rows : List Cells} {stage : Scan.Stage} {world : ω}
    (hlimit : pages.length < limit)
    (h : paged.Standing faults origin retry total failure? rows stage world) {count : ℕ}
    (hcount : rows.length + failure?.toList.length < count) (job : Job) (split : Split)
    (partitioner : Partitioner) (keys : KeyLayout) (layout : RowLayout) (stats : Stats)
    (cache : Cache ι) (tally : Tally) :
    ∃ reader shared, Reader.drain services limit count
        ⟨job, split, partitioner, keys, connection, ⟨some statement, layout, retry, stage, stats⟩⟩
        ⟨world, cache, tally⟩ =
          some (rows.map (fun row => .ok (layout.record row)) ++ failure?.toList.map .error,
            reader, shared) ∧
      paged.Traced faults retry.delay origin total shared.world := by
  obtain ⟨count, rfl⟩ : ∃ n, count = n + 1 := ⟨count - 1, by omega⟩
  induction rows generalizing stage world stats tally count with
  | nil =>
    cases h with
    | exhausted hnone htraced =>
      subst hnone
      exact ⟨_, _, drain_of_not_hasNext rfl count _, htraced⟩
    | @owed failure _ hsome htraced =>
      subst hsome
      obtain ⟨count, rfl⟩ : ∃ n, count = n + 1 := ⟨count - 1, by
        simp only [Option.toList_some, List.length_singleton] at hcount
        omega⟩
      let told : Reader ι := ⟨job, split, partitioner, keys, connection,
        ⟨some statement, layout, retry, .failed none, stats⟩⟩
      refine ⟨told, ⟨world, cache, tally⟩, ?_, htraced⟩
      rw [drain_of_next rfl (next_of_failure rfl), drain_of_not_hasNext rfl]
      rfl
  | cons row rows ih =>
    let before : Reader ι := ⟨job, split, partitioner, keys, connection,
      ⟨some statement, layout, retry, stage, stats⟩⟩
    have hhas : before.hasNext = true := (h.hasNext_eq layout stats).trans (decide_eq_true (by
      rw [List.length_cons]
      omega))
    obtain ⟨stage', stats', world', tally', hnext, hstanding⟩ :=
      Paged.next_row layout stats tally hlimit h
    obtain ⟨count, rfl⟩ : ∃ n, count = n + 1 := ⟨count - 1, by
      simp only [List.length_cons] at hcount
      omega⟩
    obtain ⟨reader, shared, hdrain, htraced⟩ := ih hstanding stats' tally' count (by
      simp only [List.length_cons] at hcount
      omega)
    have hreader : before.next services limit ⟨world, cache, tally⟩ = some (.ok (layout.record row),
        { before with scan := ⟨some statement, layout, retry, stage', stats'⟩ },
        ⟨world', cache, tally'⟩) := next_of_record hnext
    refine ⟨reader, shared, (drain_of_next hhas hreader _).trans ?_, htraced⟩
    rw [hdrain]
    rfl

/-- A reader whose session meets no fault hands out the rows of all pages. -/
theorem read_of_prepare {job job' : Job} {split : Split} {partitioner : Partitioner}
    {keys : KeyLayout} {layout : RowLayout} {retry : RetryPolicy} {before after : Shared ω ι}
    (hprepare : prepare services job split before =
      (.ok ⟨job', split, partitioner, keys, connection,
        ⟨some statement, layout, retry, .unstarted, {}⟩⟩, after))
    (hmeets : paged.Meets after.world (Stream'.const none)) (hlimit : pages.length < limit)
    {count : ℕ} (hcount : pages.flatten.length < count) :
    ∃ reader opened rest drained,
      Reader.start services limit job split before = some (.ok reader, opened) ∧
      reader.drain services limit count opened =
        some (pages.flatten.map fun row => .ok (layout.record row), rest, drained) ∧
      paged.Meets drained.world (Stream'.const none) := by
  obtain ⟨answer, stage, stats, world, tally, hstart, hbegun⟩ :=
    Paged.start_course layout {} after.tally.addScan hlimit hmeets
      (Schedule.course_const (show 0 < max 1 retry.maxAttempts by omega) _)
  rw [Paged.rowsFrom_all] at hbegun
  cases hbegun with
  | accepted hstanding _ =>
    obtain ⟨rest, drained, hdrain, htraced⟩ := drain_standing hlimit hstanding
      (show pages.flatten.length + 0 < count by omega) job' split partitioner keys layout stats
      after.cache tally
    refine ⟨_, _, rest, drained, start_of_prepare hprepare hstart, ?_, ?_⟩
    · simpa only [Option.toList_none, List.map_nil, List.append_nil] using hdrain
    · simpa only [Stream'.drop_const] using htraced.meets

end RingScan.Reader
