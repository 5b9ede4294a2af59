import RingScan.Job.Document
import RingScan.Proofs.Value.Document
import RingScan.Ring.Document
import RingScan.Table.Document

/-!
# Jobs, tables and splits read back

Whatever is written as a document is the same when it is read: a table and a split always, a job as
long as its values hold no real and do not nest lists too deeply.  Reals are left out because they
are written with as few digits as tell them apart, but read by scaling their digits once, which may
miss the last bit.

## Main definitions

* `Job.values`: the values that a job holds.

## Main statements

* `Table.reads_write`, `Split.reads_write`, `Job.reads_write`: tables, splits and jobs read back.
* `Document.parse_write`: the same for their whole texts, with the check of a job.
-/

namespace RingScan

open Document

/-! ### Tables -/

@[simp] theorem ColumnType.ofName?_name (type : ColumnType) :
    ColumnType.ofName? type.name = some type := by
  cases type <;> rfl

theorem ColumnType.reads_name (type : ColumnType) :
    Reads ColumnType.reader (writeText type.name) type where
  opens := (reads_text _).opens
  reads rest _ := by
    rw [ColumnType.reader, text_writeText]
    simp only [bind, Except.bind, ColumnType.ofName?_name]

theorem Column.reads_write (column : Column) : Reads Column.reader column.write column := by
  have hnames : (Column.fields.map Member.name).Nodup := by decide
  have hname := reads_text column.name
  have htype := ColumnType.reads_name column.type
  have hindex := reads_boolean column.hasCustomIndex
  exact reads_record hnames
    (.slot hname rfl <| .slot htype rfl <| .slot hindex rfl <| .nil _) rfl

theorem Table.reads_write (table : Table) : Reads Table.reader table.write table := by
  have hnames : (Table.fields.map Member.name).Nodup := by decide
  have hcolumns (columns : List Column) :
      Reads (sequence Column.reader) (writeList (columns.map Column.write)) columns :=
    reads_sequence_map fun column _ => column.reads_write
  exact reads_record hnames
    (.slot (hcolumns table.partitionKey) rfl <|
      .slot (hcolumns table.clustering) rfl <|
      .slot (hcolumns table.columns) rfl <| .nil _) rfl

/-! ### Splits -/

theorem Token.reads_write : (token : Token) → Reads Token.reader token.write token
  | .long n => reads_tagged "long" rfl ((reads_int64 n).map Token.long)
  | .bytes key => reads_tagged "bytes" rfl ((reads_bytes key).map Token.bytes)

theorem Split.reads_write (split : Split) : Reads Split.reader split.write split := by
  have hnames : (Split.fields.map Member.name).Nodup := by decide
  have hreplicas : Reads (sequence Document.text) (writeList (split.replicas.map writeText))
      split.replicas := reads_sequence_map fun replica _ => reads_text replica
  exact reads_record hnames
    (.slot split.start.reads_write rfl <| .slot split.stop.reads_write rfl <|
      .slot hreplicas rfl <| .nil _) rfl

/-! ### Dictionaries -/

namespace Dictionary

/-- A name that comes after all others is put at the end. -/
theorem put_eq_append {name text : String} {entries : List (String × String)}
    (h : ∀ entry ∈ entries, entry.1 < name) : put name text entries = entries ++ [(name, text)] := by
  induction entries with
  | nil => rfl
  | cons entry entries ih =>
    obtain ⟨hentry, hentries⟩ := List.forall_mem_cons.1 h
    have hnot : ¬ name < entry.1 := String.lt_asymm hentry
    have hne : name ≠ entry.1 := fun heq => String.lt_irrefl _ (heq ▸ hentry)
    rw [put, if_neg hnot, if_neg hne, ih hentries, List.cons_append]

/-- Entries in the order of their names are put one after another. -/
theorem entries_foldl_insert {entries : List (String × String)} (dictionary : Dictionary)
    (h : (dictionary.entries ++ entries).Pairwise fun a b => a.1 < b.1) :
    (entries.foldl (fun dictionary entry => dictionary.insert entry.1 entry.2)
      dictionary).entries = dictionary.entries ++ entries := by
  induction entries generalizing dictionary with
  | nil => rw [List.foldl_nil, List.append_nil]
  | cons entry entries ih =>
    have hlast : ∀ before ∈ dictionary.entries, before.1 < entry.1 := fun before hbefore =>
      (List.pairwise_append.1 h).2.2 before hbefore entry List.mem_cons_self
    have hput : (dictionary.insert entry.1 entry.2).entries = dictionary.entries ++ [entry] :=
      put_eq_append hlast
    rw [List.foldl_cons, ih _ (by rw [hput, List.append_assoc]; exact h), hput, List.append_assoc]
    rfl

theorem ofList_entries (dictionary : Dictionary) : ofList dictionary.entries = dictionary := by
  have hentries : (ofList dictionary.entries).entries = dictionary.entries :=
    entries_foldl_insert ∅ dictionary.sorted
  cases hd : ofList dictionary.entries
  rw [hd] at hentries
  cases dictionary
  cases hentries
  rfl

theorem reads_write (dictionary : Dictionary) :
    Reads Dictionary.reader dictionary.write dictionary := by
  have h := (reads_mapping writeText fun entry (_ : entry ∈ dictionary.entries) =>
    reads_text entry.2).map ofList
  rwa [ofList_entries] at h

end Dictionary

/-! ### Jobs -/

@[simp] theorem Comparison.ofTag?_tag (comparison : Comparison) :
    Comparison.ofTag? comparison.tag = some comparison := by
  cases comparison <;> decide

/-- A value reads back where twice as many collections may be opened as its lists are nested, and
two more. -/
theorem Value.reads_write_of_le {value : Value} {levels : ℕ} (hexact : value.isExact = true)
    (hlevels : 2 * value.nesting + 2 ≤ levels) : Reads (Value.reader levels) value.write value := by
  obtain ⟨levels, rfl⟩ : ∃ inner, levels = inner + 2 := ⟨levels - 2, by omega⟩
  exact value.reads_write levels hexact (by omega)

section Levels

variable {levels : ℕ}

theorem Lookup.reads_write {lookup : Lookup}
    (h : ∀ value ∈ lookup.equalsValue :: lookup.inValues,
      value.isExact = true ∧ 2 * value.nesting + 4 ≤ levels) :
    Reads (Lookup.reader levels) lookup.write lookup := by
  have hnames : ((Lookup.fields levels).map Member.name).Nodup := by
    simp [Lookup.fields, Member.slot]
  obtain ⟨⟨hexact, hlevels⟩, hin⟩ := List.forall_mem_cons.1 h
  have hequals : Reads (Value.reader (levels - 1)) lookup.equalsValue.write lookup.equalsValue :=
    Value.reads_write_of_le hexact (by omega)
  have hvalues : Reads (sequence (Value.reader (levels - 2)))
      (writeList (lookup.inValues.map Value.write)) lookup.inValues :=
    reads_sequence_map fun value hvalue =>
      Value.reads_write_of_le (hin value hvalue).1 (by have := (hin value hvalue).2; omega)
  exact reads_record hnames
    (.slot (reads_text lookup.equalsField) rfl <| .slot hequals rfl <|
      .slot (reads_text lookup.inField) rfl <| .slot hvalues rfl <| .nil _) rfl

theorem Restriction.reads_write {restriction : Restriction}
    (hexact : restriction.value.isExact = true)
    (hlevels : 2 * restriction.value.nesting + 3 ≤ levels) :
    Reads (Restriction.reader levels) restriction.write restriction := by
  have hnames : ((Restriction.fields levels).map Member.name).Nodup := by
    simp [Restriction.fields, Member.slot]
  have hvalue : Reads (Value.reader (levels - 1)) restriction.value.write restriction.value :=
    Value.reads_write_of_le hexact (by omega)
  have hcomparison : Reads (choice Comparison.ofTag?) (writeText restriction.comparison.tag)
      restriction.comparison := reads_choice (Comparison.ofTag?_tag _)
  exact reads_record hnames
    (.slot (reads_text restriction.field) rfl <| .slot hcomparison rfl <|
      .slot hvalue rfl <| .nil _) rfl

end Levels

namespace Job

/-- The values that a job holds: those that are looked up and those that cells are compared
with. -/
def values (job : Job) : List Value :=
  (job.lookup.toList.flatMap fun lookup => lookup.equalsValue :: lookup.inValues) ++
    job.restrictions.map (·.value)

/-- A job reads back whose values hold no real and open few enough collections. -/
theorem reads_write {job : Job}
    (h : ∀ value ∈ job.values, value.isExact = true ∧ 2 * value.nesting + 5 ≤ deepest) :
    Reads Job.reader job.write job := by
  have hnames : (Job.fields.map Member.name).Nodup := by decide
  have htexts (texts : List String) :
      Reads (sequence text) (writeList (texts.map writeText)) texts :=
    reads_sequence_map fun text _ => reads_text text
  have hpageSize : Reads (natural (Nat.pow 2 64 - 1)) (writeInteger job.pageSize.toNat)
      job.pageSize.toNat :=
    reads_natural (by decide) (Nat.le_of_lt_succ job.pageSize.toNat_lt)
  have hlookup : Reads (optional (Lookup.reader (deepest - 1)))
      ((job.lookup.map Lookup.write).getD writeNull) job.lookup := by
    cases hjob : job.lookup with
    | none => exact reads_optional_none _
    | some lookup =>
      refine reads_optional_some (Lookup.reads_write fun value hvalue => ?_)
      have hmem : value ∈ job.values := by
        rw [values, hjob]
        exact List.mem_append_left _ (List.mem_flatMap.2 ⟨lookup, List.mem_singleton_self _, hvalue⟩)
      exact ⟨(h value hmem).1, by have := (h value hmem).2; omega⟩
  have hrestrictions : Reads (sequence (Restriction.reader (deepest - 2)))
      (writeList (job.restrictions.map Restriction.write)) job.restrictions := by
    refine reads_sequence_map fun restriction hrestriction => ?_
    have hmem : restriction.value ∈ job.values :=
      List.mem_append_right _ (List.mem_map_of_mem hrestriction)
    exact Restriction.reads_write (h _ hmem).1 (by have := (h _ hmem).2; omega)
  refine reads_record hnames
    (.slot (reads_text job.keyspace) rfl <| .slot (reads_text job.table) rfl <|
      .slot (htexts job.columns) rfl <| .slot hpageSize rfl <|
      .slot (reads_text job.partitioner) rfl <| .slot hlookup rfl <|
      .slot hrestrictions rfl <| .slot job.indexExpressions.reads_write rfl <|
      .slot (htexts job.localAddresses) rfl <| .nil _) ?_
  simp [Draft.finish]

end Job

namespace Document

/-- Documents read back.  Every table and every split is what its text stands for; so is every job
whose values hold no real and nest lists at most fifty deep, and where the job meets what every job
has to meet, it can be loaded. -/
theorem parse_write :
    (∀ job : Job, (∀ value ∈ job.values, value.isExact = true ∧ value.nesting ≤ 50) →
      parse Job.reader (String.ofList job.write) = .ok job ∧
        (job.check = .ok () → Job.load (String.ofList job.write) = .ok job)) ∧
    (∀ table : Table, parse Table.reader (String.ofList table.write) = .ok table) ∧
    (∀ split : Split, parse Split.reader (String.ofList split.write) = .ok split) := by
  refine ⟨fun job h => ?_, fun table => table.reads_write.parse,
    fun split => split.reads_write.parse⟩
  have hdeepest : deepest = 127 := rfl
  have hread : parse Job.reader (String.ofList job.write) = .ok job :=
    (Job.reads_write fun value hvalue =>
      ⟨(h value hvalue).1, by have := (h value hvalue).2; omega⟩).parse
  refine ⟨hread, fun hcheck => ?_⟩
  rw [Job.load, hread]
  simp only [Except.mapError, bind, Except.bind, hcheck]

/-- A job whose texts need every kind of escape, whose numbers lie at the ends of their ranges and
one of whose lists is nested. -/
def extremeJob : Job where
  keyspace := "\"quoted\" \\ /"
  table := "a\x08\x0c\n\r\t\x00\x1f\x7f\u00e9\u2028"
  columns := ["", "id"]
  pageSize := 0xFFFFFFFFFFFFFFFF
  lookup := some
    { equalsField := "f"
      equalsValue := .bigInt Int64.minValue
      inField := "g"
      inValues := [.tinyInt (-128), .list [.list [], .blob [0, 255], .text "'"]] }
  restrictions :=
    [⟨"c", .lessOrEqual, .inet ⟨[32, 1, 0, 0, 0, 0, 0, 0, 0, 0, 0, 0, 0, 0, 0, 1], .inr rfl⟩⟩]
  indexExpressions := Dictionary.ofList [("b", "x"), ("a", "\x7b\x7d")]

theorem parse_write_extremeJob :
    (∀ value ∈ extremeJob.values, value.isExact = true ∧ value.nesting ≤ 50) ∧
      extremeJob.check = .ok () ∧
      Job.load (String.ofList extremeJob.write) = .ok extremeJob := by
  have hvalues : ∀ value ∈ extremeJob.values, value.isExact = true ∧ value.nesting ≤ 50 := by
    decide
  have hcheck : extremeJob.check = .ok () := by rfl
  exact ⟨hvalues, hcheck, (parse_write.1 extremeJob hvalues).2 hcheck⟩

end Document

end RingScan
