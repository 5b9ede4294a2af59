import Mathlib.Data.List.Basic
import RingScan.Memory.Node
import RingScan.Plan.Report
import RingScan.Proofs.Reader.Opening

/-!
# Reports and readers

A report tells the statement that a reader of a split would execute, but the two do not take quite
the same way to it.  A reader first trims the wanted columns of its job and leaves out blank ones; a
report selects the columns as they stand, each of them trimmed.  The two agree unless a wanted
column is blank.  Then the report selects a column without a name, unless that is the name of a key
column, or the report selects the key columns where the reader selects all columns.

## Main definitions

* `Job.SelectsTrimmed`: leaving blank columns out makes no difference to what is selected.

## Main statements

* `Template.selectionOf_normalised_iff`: when the two select the same.
* `Template.statement?_eq_iff`: a statement depends on what is selected, and on nothing else.
* `Plan.reaches_statement_iff`: when a report tells the statement that a reader executes.
-/

namespace RingScan

/-- Leaving blank columns out makes no difference to what a job selects: no wanted column is blank,
or a key column has no name either and some wanted column is not blank. -/
def Job.SelectsTrimmed (job : Job) (keys : KeyLayout) : Prop :=
  (∀ column ∈ job.columns, Text.isAllBlank column = false) ∨
    keys.isKey "" = true ∧ ∃ column ∈ job.columns, Text.isAllBlank column = false

namespace Template

/-! ### Lists of names -/

/-- A name and the comma after it. -/
def terminated (name : String) : List Char :=
  Query.name name ++ [',']

theorem names_append_comma {list : List String} (h : list ≠ []) :
    names list ++ [','] = list.flatMap terminated := by
  induction list with
  | nil => exact absurd rfl h
  | cons name list ih =>
    cases list with
    | nil => rw [names_singleton, List.flatMap_singleton, terminated]
    | cons other list =>
      rw [names_cons_cons, List.flatMap_cons, ← ih (List.cons_ne_nil _ _), terminated,
        List.append_assoc, List.append_assoc, List.cons_append, List.singleton_append]

theorem names_append_eq_iff {list first second : List String} (h : list ≠ []) :
    names (list ++ first) = names (list ++ second) ↔
      first.flatMap terminated = second.flatMap terminated := by
  rw [← List.append_left_inj [','], names_append_comma (by simp [h]),
    names_append_comma (by simp [h]), List.flatMap_append, List.flatMap_append,
    List.append_right_inj]

theorem length_flatMap_filter_le (keep : String → Bool) (list : List String) :
    ((list.filter keep).flatMap terminated).length ≤ (list.flatMap terminated).length := by
  induction list with
  | nil => exact Nat.le_refl 0
  | cons name list ih =>
    rw [List.filter_cons]
    split <;> simp only [List.flatMap_cons, List.length_append] <;> omega

/-- Leaving names out changes a text, because each name takes some of it. -/
theorem flatMap_filter_eq_iff {keep : String → Bool} {list : List String} :
    (list.filter keep).flatMap terminated = list.flatMap terminated ↔
      ∀ name ∈ list, keep name = true := by
  refine ⟨fun h => ?_, fun h => by rw [List.filter_eq_self.2 h]⟩
  induction list with
  | nil => exact fun _ hmem => absurd hmem List.not_mem_nil
  | cons name list ih =>
    rw [List.filter_cons] at h
    split at h
    · rename_i hname
      exact List.forall_mem_cons.2 ⟨hname, ih (List.append_cancel_left h)⟩
    · have hlength := congrArg List.length h
      have hle := length_flatMap_filter_le keep list
      simp only [List.flatMap_cons, List.length_append, terminated, List.length_singleton] at hlength
      omega

theorem names_cons_ne_all (name : String) (list : List String) : names (name :: list) ≠ ['*'] := by
  cases list <;> simp [names, Query.name, Text.quoted]

/-! ### Selections -/

theorem selected_eq (keys : KeyLayout) (columns : List String) :
    selected keys columns = keys.names ++ (columns.map Text.trim).filter (!keys.isKey ·) := rfl

theorem selected_normalised (job : Job) (keys : KeyLayout) :
    selected keys job.normalised.columns =
      keys.names ++ ((job.columns.map Text.trim).filter (!keys.isKey ·)).filter (!·.isEmpty) := by
  rw [selected_eq, job.map_trim_normalised, Job.normalised, List.filter_comm]

theorem isEmpty_trim (column : String) : (Text.trim column).isEmpty = Text.isAllBlank column := by
  rw [Bool.eq_iff_iff, String.isEmpty_iff, Text.trim_eq_empty_iff]

/-- The columns that are selected beside those of the key all have a name if no column is blank, or
if the blank ones are taken for a key column. -/
theorem forall_selected_named_iff (job : Job) (keys : KeyLayout) :
    (∀ name ∈ (job.columns.map Text.trim).filter (!keys.isKey ·), (!name.isEmpty) = true) ↔
      (∀ column ∈ job.columns, Text.isAllBlank column = false) ∨ keys.isKey "" = true := by
  simp only [List.mem_filter, List.mem_map, and_imp, forall_exists_index, Bool.not_eq_true',
    forall_apply_eq_imp_iff₂, isEmpty_trim]
  constructor
  · intro h
    by_cases hkey : keys.isKey "" = true
    · exact .inr hkey
    · refine .inl fun column hcolumn => ?_
      by_contra hblank
      have hempty : Text.trim column = "" :=
        Text.trim_eq_empty_iff.2 (Bool.not_eq_false _ ▸ hblank)
      exact hblank (h column hcolumn (by simpa [hempty] using hkey))
  · rintro (h | hkey) column hcolumn hname
    · exact h column hcolumn
    · by_contra hblank
      have hempty : Text.trim column = "" :=
        Text.trim_eq_empty_iff.2 (Bool.not_eq_false _ ▸ hblank)
      rw [hempty, hkey] at hname
      cases hname

theorem selectionOf_normalised_iff (job : Job) (keys : KeyLayout) :
    selectionOf keys job.normalised.columns = selectionOf keys job.columns ↔
      job.SelectsTrimmed keys := by
  by_cases hcolumns : job.columns = []
  · simp [Job.SelectsTrimmed, Job.normalised, hcolumns]
  have hselection : selectionOf keys job.columns = names (selected keys job.columns) := by
    rw [selectionOf, List.isEmpty_eq_false_iff.2 hcolumns, if_neg Bool.false_ne_true]
  by_cases hblank : ∀ column ∈ job.columns, Text.isAllBlank column = true
  · -- Nothing is left of the wanted columns, so a reader selects all columns.
    have hnone : job.normalised.columns = [] := by
      simpa [Job.normalised, Text.trim_eq_empty_iff] using hblank
    obtain ⟨column, hcolumn⟩ := List.exists_mem_of_ne_nil _ hcolumns
    refine iff_of_false ?_ ?_
    · rw [hselection, hnone]
      exact (names_cons_ne_all _ _).symm
    · rintro (h | ⟨-, other, hother, hnot⟩)
      · exact absurd ((h column hcolumn).symm.trans (hblank column hcolumn)) Bool.false_ne_true
      · exact absurd (hnot.symm.trans (hblank other hother)) Bool.false_ne_true
  · have hsome : ∃ column ∈ job.columns, Text.isAllBlank column = false := by
      simpa using hblank
    have hleft : job.normalised.columns ≠ [] := by
      simpa [Job.normalised, Text.trim_eq_empty_iff] using hsome
    have hkeys : keys.names ≠ [] := List.cons_ne_nil _ _
    rw [hselection, selectionOf, List.isEmpty_eq_false_iff.2 hleft, if_neg Bool.false_ne_true,
      selected_normalised, selected_eq, names_append_eq_iff hkeys, flatMap_filter_eq_iff,
      forall_selected_named_iff, Job.SelectsTrimmed, and_iff_left hsome]

/-! ### Statements -/

theorem rangeText_eq_iff (template : Template) (selection : List Char) :
    { template with selection }.rangeText = template.rangeText ↔ selection = template.selection :=
  (List.append_right_inj _).trans (List.append_left_inj _)

theorem lookupText_eq_iff (template : Template) (selection : List Char)
    (equalsField inField : String) :
    { template with selection }.lookupText equalsField inField =
        template.lookupText equalsField inField ↔
      selection = template.selection :=
  (List.append_right_inj _).trans (List.append_left_inj _)

/-- Two templates that differ in what they select lead to the same answer if and only if they do not
differ, or the answer is no statement. -/
theorem statement?_eq_iff (template : Template) (selection : List Char) (lookup : Option Lookup)
    (shape : KeyShape) (partitioner : Partitioner) (split : Split) :
    { template with selection }.statement? lookup shape partitioner split =
        template.statement? lookup shape partitioner split ↔
      selection = template.selection ∨
        ∀ statement, template.statement? lookup shape partitioner split ≠ .ok (some statement) := by
  cases lookup with
  | none =>
    rw [or_iff_left fun h => h _ rfl, ← rangeText_eq_iff]
    simp only [statement?, Except.ok.injEq, Option.some.injEq, Statement.mk.injEq, and_true,
      String.ofList_inj]
  | some lookup =>
    simp only [statement?]
    rcases lookup.retained shape partitioner split with failure | _ | ⟨candidate, candidates⟩
    · exact iff_of_true rfl (.inr fun statement => nofun)
    · exact iff_of_true rfl (.inr fun statement => nofun)
    · rw [or_iff_left fun h => h _ rfl,
        ← lookupText_eq_iff template selection lookup.equalsField lookup.inField]
      simp only [bind, Except.bind, Except.ok.injEq, Option.some.injEq, Statement.mk.injEq,
        and_true, String.ofList_inj]

end Template

/-! ### Reports -/

namespace Plan

theorem subjectOf_eq_ok {job : Job} {table : Table} {arguments : Arguments}
    {partitioner : Partitioner} {start stop : Token} {keys : KeyLayout}
    (hpartitioner : Partitioner.ofIdentifier job.partitioner = .ok partitioner)
    (hstart : partitioner.readToken arguments.start = .ok start)
    (hstop : partitioner.readToken arguments.stop = .ok stop) (hkeys : table.keys = .ok keys) :
    subjectOf job table arguments = .ok ⟨job, partitioner, ⟨start, stop, arguments.replicas⟩, keys,
      Template.ofJob Query.standardFilters job keys table⟩ := by
  simp only [subjectOf, hpartitioner, hstart, hstop, hkeys, bind, Except.bind]

theorem report_of_subjectOf {files : String → Option String} {pageSize : Option String} {job : Job}
    {table : Table} {arguments : Arguments} {subject : Subject}
    (h : subjectOf job table arguments = .ok subject)
    (hjob : readJob files pageSize arguments.config = .ok job)
    (htable : readTable files arguments.metadata = .ok table) :
    report files pageSize arguments = reportOn subject := by
  have hsubject : Plan.subject files pageSize arguments = .ok subject := by
    simp only [Plan.subject, hjob, htable, h, bind, Except.bind]
    rfl
  rw [report, hsubject]

/-- **A report tells the statement that a reader executes**, if the wanted columns are selected as
they would be without the blank ones, and in no other case in which there is a statement.  The
reader opens with a replica that accepts a connection and tells the columns of the table; `executed`
is what it executes meanwhile, and `trimmed` is what the report would be about if the job named no
blank columns. -/
theorem reaches_statement_iff {ω ι : Type} {services : Services ω ι} {job : Job} {table : Table}
    {arguments : Arguments} {partitioner : Partitioner} {start stop : Token} {keys : KeyLayout}
    {before after : Shared ω ι} {connection : ι} (hcheck : job.check = .ok ())
    (hpartitioner : Partitioner.ofIdentifier job.partitioner = .ok partitioner)
    (hstart : partitioner.readToken arguments.start = .ok start)
    (hstop : partitioner.readToken arguments.stop = .ok stop) (hkeys : table.keys = .ok keys)
    (hfilters : services.filters = Query.standardFilters)
    (hfinds : services.Finds job ⟨start, stop, arguments.replicas⟩ before connection table after) :
    ∃ subject trimmed, subjectOf job table arguments = .ok subject ∧
      subjectOf job.normalised table arguments = .ok trimmed ∧
      (∀ files, readJob files none arguments.config = .ok job →
        readTable files arguments.metadata = .ok table →
          report files none arguments = reportOn subject) ∧
      (∀ limit answer opened,
        Reader.start services limit job subject.split before = some (answer, opened) →
          ∃ executed, Reader.start services.noting limit job subject.split (before.withNotes []) =
              some (answer, opened.withNotes executed) ∧
            Reader.Reaches answer executed trimmed.statement? ∧
            (Reader.Reaches answer executed subject.statement? ↔
              job.SelectsTrimmed keys ∨
                ∀ statement, subject.statement? ≠ .ok (some statement))) ∧
      ((∀ statement, trimmed.statement? = .ok (some statement) →
          ∃ page, ((services.cluster.session connection).execute statement none after.world).1 =
            .ok page ∧ (page.rows = [] → page.continuation = none)) →
        ∀ limit, (Reader.start services (limit + 1) job subject.split before).isSome = true) := by
  have hsubject := subjectOf_eq_ok hpartitioner hstart hstop hkeys
  have htrimmed : subjectOf job.normalised table arguments = .ok _ :=
    subjectOf_eq_ok hpartitioner hstart hstop hkeys
  have hsettle : Reader.settle job = .ok partitioner := by
    simp only [Reader.settle, hcheck, hpartitioner, bind, Except.bind]
  refine ⟨_, _, hsubject, htrimmed, fun files => report_of_subjectOf hsubject, ?_, ?_⟩
  · intro limit answer opened hopened
    obtain ⟨executed, hnoting, hreaches⟩ := Reader.start_reaches hsettle hfinds hkeys hopened
    rw [hfilters] at hreaches
    refine ⟨executed, hnoting, hreaches,
      Iff.trans ⟨fun h => hreaches.unique h, fun h => h ▸ hreaches⟩ ?_⟩
    rw [← Template.selectionOf_normalised_iff]
    exact Template.statement?_eq_iff (Template.ofJob Query.standardFilters job keys table) _ ..
  · intro hpage limit
    exact Reader.start_isSome hsettle hfinds hkeys (hfilters ▸ hpage) limit

/-- A wanted column with blanks around its name. -/
theorem reaches_statement_of_padded_column :
    let id : Column := { name := "id", type := .int }
    let table : Table := ⟨[id], [], [id]⟩
    let job : Job := { keyspace := "ks", table := "t", columns := [" val "] }
    let arguments : Arguments := ⟨"job", "table", "-1", "1", ["a"]⟩
    let services : Services Memory.World ℕ := { cluster := Memory.cluster }
    let before : Shared Memory.World ℕ := { world := ⟨{}, { store := .fixed [] }, .ok table⟩ }
    ∃ subject answer opened executed, subjectOf job table arguments = .ok subject ∧
      Reader.start services 1 job subject.split before = some (answer, opened) ∧
      Reader.start services.noting 1 job subject.split (before.withNotes []) =
        some (answer, opened.withNotes executed) ∧
      Reader.Reaches answer executed subject.statement? := by
  intro id table job arguments services before
  have hcheck : job.check = .ok () := by decide
  have hpartitioner : Partitioner.ofIdentifier job.partitioner = .ok .hashed := by decide
  have hstart : Partitioner.hashed.readToken arguments.start = .ok (.long (-1)) := by decide
  have hstop : Partitioner.hashed.readToken arguments.stop = .ok (.long 1) := by decide
  let after : Shared Memory.World ℕ :=
    ⟨⟨⟨[], ["a"], 1⟩, { store := .fixed [] }, .ok table⟩, (Cache.keep ∅ ⟨"a", "ks"⟩ 0).2, {}⟩
  have hfinds : services.Finds job ⟨.long (-1), .long 1, ["a"]⟩ before 0 table after :=
    ⟨⟨after.world, rfl, rfl⟩, rfl⟩
  have hselects : job.SelectsTrimmed ⟨id, [], []⟩ :=
    .inl (List.forall_mem_singleton.2 (by decide))
  obtain ⟨subject, trimmed, hsubject, -, -, hreaches, hsome⟩ :=
    reaches_statement_iff hcheck hpartitioner hstart hstop rfl rfl hfinds
  obtain ⟨⟨answer, opened⟩, hopened⟩ :=
    Option.isSome_iff_exists.1 (hsome (fun _ _ => ⟨{}, rfl, fun _ => rfl⟩) 0)
  obtain ⟨executed, hnoting, -, hiff⟩ := hreaches 1 answer opened hopened
  exact ⟨subject, answer, opened, executed, hsubject, hopened, hnoting, hiff.2 (.inl hselects)⟩

/-- A job whose only wanted column is blank.  The report tells of a column without a name, and the
reader selects all columns. -/
theorem reaches_statement_of_blank_column_false :
    let id : Column := { name := "id", type := .int }
    let table : Table := ⟨[id], [], [id]⟩
    let job : Job := { keyspace := "ks", table := "t", columns := [" "] }
    let arguments : Arguments := ⟨"job", "table", "-1", "1", ["a"]⟩
    let services : Services Memory.World ℕ := { cluster := Memory.cluster }
    let before : Shared Memory.World ℕ := { world := ⟨{}, { store := .fixed [] }, .ok table⟩ }
    ∃ subject, job.check = .ok () ∧ subjectOf job table arguments = .ok subject ∧
      subject.statement? = .ok (some
        ⟨"SELECT \"id\",\"\" FROM \"t\" WHERE token(\"id\") > ? AND token(\"id\") <= ? ALLOW FILTERING",
          [.bigInt (-1), .bigInt 1], 1000⟩) ∧
      (Reader.start services 1 job subject.split before).map
          (fun (answer, opened) =>
            (answer.isOk, opened.world.node.executions.map (·.statement))) =
        some (true,
          [⟨"SELECT * FROM \"t\" WHERE token(\"id\") > ? AND token(\"id\") <= ? ALLOW FILTERING",
            [.bigInt (-1), .bigInt 1], 1000⟩]) := by
  intro id table job arguments services before
  have hpartitioner : Partitioner.ofIdentifier job.partitioner = .ok .hashed := by decide
  have hstart : Partitioner.hashed.readToken arguments.start = .ok (.long (-1)) := by decide
  have hstop : Partitioner.hashed.readToken arguments.stop = .ok (.long 1) := by decide
  exact ⟨_, by decide, subjectOf_eq_ok hpartitioner hstart hstop rfl, by decide, by decide⟩

end Plan

end RingScan
