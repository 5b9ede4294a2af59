import RingScan.Proofs.Query.Selection
import RingScan.Proofs.Reader.Balance
import RingScan.Proofs.Reader.Opening
import RingScan.Proofs.Row.Place

/-!
# Columns of a reader

Two parts of a reader decide about columns on their own.  The statement selects the key columns and
the wanted names that are no key columns, whether the table has them or not.  The layout takes the
key columns and those of the other columns of the table that are wanted.  Both start from the same
trimmed names, so every column of the layout is selected and every selected column of the table has
its place in the layout.  A record then holds each of these columns once, where it first stands in
the table, under the cell that the row has for it.

## Main statements

* `RowLayout.mem_iff_selected`: which columns a layout has if some are wanted by name.
* `Reader.columns_of_start`: what a reader selects and what its records hold.
-/

namespace RingScan

namespace RowLayout

variable {keys : KeyLayout} {table : Table} {job : Job}

theorem names_select (names : List String) (row : Cells) :
    (select names row).names = names.eraseDups := by
  rw [select, Cells.names_ofList, List.map_map]
  exact congrArg List.eraseDups (List.map_id names)

/-- The cells of a record are those of its row, each under its name and in one place only. -/
theorem record_ofTable (keys : KeyLayout) (table : Table) (isWanted : String → Bool) (row : Cells) :
    let layout := ofTable keys table isWanted
    let record := layout.record row
    record.keys.names.Disjoint record.values.names ∧
      record.keys.names = keys.names.eraseDups ∧
      record.values.names = layout.valueColumns.eraseDups ∧
      (∀ name ∈ record.keys.names, record.keys.get? name = some (row.value? name)) ∧
      ∀ name ∈ record.values.names, record.values.get? name = some (row.value? name) := by
  intro layout record
  have hkeys : record.keys.names = keys.names.eraseDups := names_select keys.names row
  have hvalues : record.values.names = layout.valueColumns.eraseDups := names_select _ row
  refine ⟨?_, hkeys, hvalues, fun name hname => ?_, fun name hname => ?_⟩
  · intro name hkey hvalue
    rw [hkeys, List.mem_eraseDups] at hkey
    rw [hvalues, List.mem_eraseDups] at hvalue
    obtain ⟨-, hother⟩ := List.mem_filter.1 hvalue
    simp [KeyLayout.isKey, hkey] at hother
  · rw [hkeys, List.mem_eraseDups] at hname
    exact get?_select hname row
  · rw [hvalues, List.mem_eraseDups] at hname
    exact get?_select hname row

/-- A layout takes the columns of a table that are wanted and not in its key. -/
theorem valueColumns_ofTable (keys : KeyLayout) (table : Table) (job : Job) :
    (ofTable keys table job.isWanted).valueColumns =
      (table.columns.map (·.name)).filter fun name =>
        name ∉ keys.names ∧ (job.columns = [] ∨ name ∈ job.columns) := by
  refine List.filter_congr fun name _ => ?_
  rw [Bool.eq_iff_iff]
  simp [KeyLayout.isKey, Job.isWanted]

end RowLayout

/-- What is selected are the key columns and the wanted ones. -/
theorem Template.mem_selected_iff {keys : KeyLayout} {job : Job} {name : String} :
    name ∈ selected keys job.normalised.columns ↔
      name ∈ keys.names ∨ name ∈ job.normalised.columns := by
  rw [selected, job.map_trim_normalised]
  by_cases h : name ∈ keys.names <;> simp [KeyLayout.isKey, h]

/-- If columns are named, a layout takes those selected columns that the table has. -/
theorem RowLayout.mem_iff_selected {keys : KeyLayout} {table : Table} {job : Job}
    (h : job.normalised.columns ≠ []) {name : String} :
    name ∈ (ofTable keys table job.normalised.isWanted).keyColumns ++
        (ofTable keys table job.normalised.isWanted).valueColumns ↔
      name ∈ Template.selected keys job.normalised.columns ∧
        name ∈ keys.names ++ table.columns.map (·.name) := by
  have hkeys : (ofTable keys table job.normalised.isWanted).keyColumns = keys.names := rfl
  rw [hkeys, valueColumns_ofTable, List.mem_append, List.mem_filter, decide_eq_true_iff,
    Template.mem_selected_iff, List.mem_append, or_iff_right h]
  tauto

/-! ### Opened readers -/

/-- Starting a scan changes neither what it executes nor where the columns of its rows go. -/
theorem Scan.keeps_of_start {σ : Type} {session : Session σ} {limit : ℕ} {scan : Scan} {world : σ}
    {tally : Tally} {outcome : Outcome σ (Except Failure Unit)}
    (h : scan.start session limit world tally = some outcome) :
    outcome.scan.statement = scan.statement ∧ outcome.scan.layout = scan.layout := by
  unfold Scan.start at h
  split at h
  · cases h
    exact ⟨rfl, rfl⟩
  · split at h <;> cases h <;> exact ⟨rfl, rfl⟩
  · cases h
    exact ⟨rfl, rfl⟩

namespace Reader

variable {ω ι : Type} {services : Services ω ι} {job : Job} {split : Split}
  {before after : Shared ω ι} {reader : Reader ι}

/-- A reader is put together for the table that a replica tells the columns of. -/
theorem exists_assembled {prepared : Shared ω ι}
    (h : prepare services job split before = (.ok reader, prepared)) :
    ∃ partitioner connection table, services.Finds job split before connection table prepared ∧
      assemble services job.normalised split partitioner connection table = .ok reader := by
  unfold prepare at h
  split at h
  · cases h
  · rename_i partitioner hsettle
    dsimp only at h
    split at h
    · cases h
    · rename_i connection world cache hacquire
      split at h
      · cases h
      · rename_i table described hdescribe
        obtain ⟨hassemble, rfl⟩ := Prod.mk.inj h
        exact ⟨partitioner, connection, table, ⟨⟨world, hacquire, hdescribe⟩, rfl⟩, hassemble⟩

/-- An open reader has the statement of the trimmed job and the layout of its wanted columns, for
the table that a replica tells the columns of. -/
theorem exists_table_of_start {limit : ℕ}
    (h : Reader.start services limit job split before = some (.ok reader, after)) :
    ∃ partitioner connection table keys prepared,
      services.Finds job split before connection table prepared ∧ table.keys = .ok keys ∧
      (Template.ofJob services.filters job.normalised keys table).statement? job.lookup keys.shape
        partitioner split = .ok reader.scan.statement ∧
      reader.scan.layout = RowLayout.ofTable keys table job.normalised.isWanted := by
  rcases start_cases h with ⟨failure, -, -, hanswer, -⟩ |
    ⟨assembled, prepared, outcome, hprepare, hstart, hanswer, -⟩
  · cases hanswer
  obtain ⟨partitioner, connection, table, hfinds, hassemble⟩ := exists_assembled hprepare
  obtain ⟨hstatement, hlayout⟩ := Scan.keeps_of_start hstart
  have hscan : reader.scan = outcome.scan := by
    cases houtcome : outcome.answer with
    | error failure =>
      rw [houtcome] at hanswer
      cases hanswer
    | ok =>
      rw [houtcome] at hanswer
      cases hanswer
      rfl
  rw [hscan, hstatement, hlayout]
  cases hkeys : table.keys with
  | error fault =>
    rw [assemble_of_keys_error hkeys] at hassemble
    cases hassemble
  | ok keys =>
    rw [assemble_of_keys hkeys] at hassemble
    refine ⟨partitioner, connection, table, keys, prepared, hfinds, hkeys, ?_⟩
    cases hresult : (Template.ofJob services.filters job.normalised keys table).statement?
        job.normalised.lookup keys.shape partitioner split with
    | error failure =>
      rw [hresult] at hassemble
      cases hassemble
    | ok statement? =>
      rw [hresult] at hassemble
      cases hassemble
      exact ⟨hresult, rfl⟩

/-- **A statement selects what the layout of its rows takes, and records hold exactly that.** An
open reader selects all columns if none are named, and its records then hold all columns of the
table.  Otherwise every column of the layout is selected, and every selected column that the table
has is in the layout.  In both cases the key cells and the value cells of a record have no name in
common, stand where their names first occur in the table, and are the cells of the row. -/
theorem columns_of_start {limit : ℕ}
    (h : Reader.start services limit job split before = some (.ok reader, after)) :
    ∃ connection table prepared, services.Finds job split before connection table prepared ∧
      let keyNames := (table.partitionKey ++ table.clustering).map (·.name)
      let names := table.columns.map (·.name)
      let wanted := (job.columns.map Text.trim).filter (!·.isEmpty)
      let layout := reader.scan.layout
      (∀ statement, reader.scan.statement = some statement →
        (wanted = [] → Query.readSelection statement.query.toList = some .all) ∧
        (wanted ≠ [] → ∃ selected,
          Query.readSelection statement.query.toList = some (.columns selected) ∧
          ∀ name, name ∈ layout.keyColumns ++ layout.valueColumns ↔
            name ∈ selected ∧ name ∈ keyNames ++ names)) ∧
      (wanted = [] → layout.valueColumns = names.filter fun name => name ∉ keyNames) ∧
      ∀ row, let record := layout.record row
        record.keys.names.Disjoint record.values.names ∧
        record.keys.names = keyNames.eraseDups ∧
        record.values.names = (names.filter fun name =>
          name ∉ keyNames ∧ (wanted = [] ∨ name ∈ wanted)).eraseDups ∧
        (∀ name ∈ record.keys.names, record.keys.get? name = some (row.value? name)) ∧
        ∀ name ∈ record.values.names, record.values.get? name = some (row.value? name) := by
  obtain ⟨partitioner, connection, table, keys, prepared, hfinds, hkeys, hstatement, hlayout⟩ :=
    exists_table_of_start h
  refine ⟨connection, table, prepared, hfinds, ?_⟩
  intro keyNames names wanted layout
  have hnames : keys.names = keyNames := by
    unfold Table.keys at hkeys
    split at hkeys <;> cases hkeys
    simp only [keyNames, KeyLayout.names, KeyLayout.all, KeyLayout.partition, *]
  have hlayout : layout = RowLayout.ofTable keys table job.normalised.isWanted := hlayout
  have hvalues := RowLayout.valueColumns_ofTable keys table job.normalised
  refine ⟨fun statement hsome => ?_, fun hnone => ?_, fun row => ?_⟩
  · rw [hsome] at hstatement
    have hread := Template.readSelection_statement? hstatement
    refine ⟨fun hnone => ?_, fun hne => ?_⟩
    · rwa [if_pos (show job.normalised.columns = [] from hnone)] at hread
    · rw [if_neg (show job.normalised.columns ≠ [] from hne)] at hread
      refine ⟨_, hread, fun name => ?_⟩
      rw [hlayout, RowLayout.mem_iff_selected hne, hnames]
  · have hall : job.normalised.columns = [] := hnone
    simpa only [hlayout, hnames, hall, true_or, and_true] using hvalues
  · obtain ⟨hdisjoint, hkey, hvalue, hcells⟩ :=
      RowLayout.record_ofTable keys table job.normalised.isWanted row
    rw [hlayout]
    rw [hvalues, hnames] at hvalue
    rw [hnames] at hkey
    exact ⟨hdisjoint, hkey, hvalue, hcells⟩

/-- The wanted names are padded, blank, repeated, unknown, or those of a key column, and the table
repeats a column. -/
theorem columns_of_start_padded :
    let id : Column := { name := "id", type := .int }
    let ts : Column := { name := "ts", type := .int }
    let val : Column := { name := "val", type := .text }
    let table : Table := ⟨[id], [ts], [val, id, { val with name := "other" }, ts, val]⟩
    let world : Memory.World := ⟨{}, { store := .fixed [] }, .ok table⟩
    let services : Services Memory.World ℕ := { cluster := Memory.cluster }
    let job : Job :=
      { keyspace := "ks", table := "t", columns := [" val", "ts", " ", "none", "val "] }
    ∃ reader after,
      Reader.start services 1 job ⟨.long 0, .long 1, ["a"]⟩ { world } = some (.ok reader, after) ∧
      (∃ statement selected, reader.scan.statement = some statement ∧
        Query.readSelection statement.query.toList = some (.columns selected) ∧
        ∀ name, name ∈ ["id", "ts", "val", "val"] ↔
          name ∈ selected ∧ name ∈ ["id", "ts", "val", "id", "other", "ts", "val"]) ∧
      ∀ row, (reader.scan.layout.record row).keys.names = ["id", "ts"] ∧
        (reader.scan.layout.record row).values.names = ["val"] ∧
        (reader.scan.layout.record row).values.get? "val" = some (row.value? "val") := by
  intro id ts val table world services job
  have hrun : (Reader.start services 1 job ⟨.long 0, .long 1, ["a"]⟩ { world }).map
      (fun p => p.1.map fun reader => (reader.scan.statement.isSome, reader.scan.layout)) =
        some (.ok (true, ⟨["id", "ts"], ["val", "val"]⟩)) := by decide
  obtain ⟨⟨_ | reader, after⟩, hstart, hreader⟩ := Option.map_eq_some_iff.1 hrun
  · cases hreader
  obtain ⟨hsome, hlayout⟩ := Prod.mk.inj (Except.ok.inj hreader)
  obtain ⟨statement, hstatement⟩ := Option.isSome_iff_exists.1 hsome
  obtain ⟨connection, described, prepared, hfinds, hselection, -, hrecord⟩ :=
    columns_of_start hstart
  obtain ⟨connected, hacquire, hdescribe⟩ := hfinds.answers
  have hconnected : .ok table = connected.table := congrArg (fun r => r.2.1.table) hacquire
  obtain rfl : table = described :=
    Except.ok.inj (hconnected.trans (congrArg Prod.fst hdescribe))
  obtain ⟨selected, hread, hselected⟩ := (hselection statement hstatement).2 (by decide)
  refine ⟨reader, after, hstart, ⟨statement, selected, hstatement, hread, ?_⟩, fun row => ?_⟩
  · rw [hlayout] at hselected
    exact hselected
  · obtain ⟨-, hkeys, hvalues, -, hcells⟩ := hrecord row
    exact ⟨hkeys.trans (by decide), hvalues.trans (by decide),
      hcells "val" (hvalues ▸ by decide)⟩

end Reader

end RingScan
