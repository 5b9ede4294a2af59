import RingScan.Job.Document
import RingScan.Plan.Arguments
import RingScan.Query.Statement
import RingScan.Ring.Split
import RingScan.Table.Document

/-!
# Reports

A report shows the statement that a reader of a split would execute, without a cluster: the columns
of the table come from a file.

## Main definitions

* `Plan.Fault`: why a report ends early.
* `Plan.Report`: the lines of a report and why it ends early.
* `Plan.report`: the report that arguments ask for.
-/

namespace RingScan.Plan

/-- Why a report ends early. -/
inductive Fault where
  /-- The file of the job cannot be read. -/
  | jobFile (path : String)
  /-- The file of the job holds no job that can be run. -/
  | job (fault : Job.LoadFault)
  /-- The file of the table cannot be read. -/
  | tableFile (path : String)
  /-- The file of the table holds no table. -/
  | table (fault : Document.Fault)
  /-- There is no statement for the split. -/
  | statement (failure : Failure)
  deriving DecidableEq, Repr

/-- The outermost message of a fault.  A fault of a file or of what a file holds has a cause of its
own, which may have further ones; their messages are no part of it. -/
def Fault.message : Fault → String
  | jobFile path => s!"read job config {path}"
  | job fault => fault.context
  | tableFile path => s!"read table metadata {path}"
  | table _ => "parse table metadata json"
  | statement failure => failure.message

/-- A report. -/
structure Report where
  /-- The lines of the report. -/
  lines : List String
  /-- Why the report ends early. -/
  fault : Option Fault := none
  deriving DecidableEq, Repr

/-- What a report is about. -/
structure Subject where
  /-- The job. -/
  job : Job
  /-- The partitioner of the job. -/
  partitioner : Partitioner
  /-- The split. -/
  split : Split
  /-- The key columns of the table. -/
  keys : KeyLayout
  /-- The parts of the statement that do not depend on the split. -/
  template : Template

/-- The job of a file, with the page size that the environment asks for. -/
def readJob (files : String → Option String) (pageSize : Option String) (path : String) :
    Except Fault Job := do
  let some text := files path | .error (.jobFile path)
  let job ← (Job.load text).mapError .job
  .ok (job.withPageSizeText pageSize)

/-- The table of a file. -/
def readTable (files : String → Option String) (path : String) : Except Fault Table := do
  let some text := files path | .error (.tableFile path)
  (Document.parse Table.reader text).mapError .table

/-- The subject of a job and a table, for the split between the texts of two tokens. -/
def subjectOf (job : Job) (table : Table) (arguments : Arguments) :
    Except ConfigurationFault Subject := do
  let partitioner ← Partitioner.ofIdentifier job.partitioner
  let start ← partitioner.readToken arguments.start
  let stop ← partitioner.readToken arguments.stop
  let keys ← table.keys
  .ok ⟨job, partitioner, ⟨start, stop, arguments.replicas⟩, keys,
    Template.ofJob Query.standardFilters job keys table⟩

/-- The subject that arguments ask for. -/
def subject (files : String → Option String) (pageSize : Option String) (arguments : Arguments) :
    Except Fault Subject := do
  let job ← readJob files pageSize arguments.config
  let table ← readTable files arguments.metadata
  (subjectOf job table arguments).mapError fun fault => .statement (.configuration fault)

/-- The lines that tell the split. -/
def splitLines (subject : Subject) : List String :=
  [s!"partitioner: {subject.partitioner.name}", s!"split:       {subject.split.text}"] ++
    if subject.split.replicas.isEmpty then []
    else ["replicas:    " ++ ", ".intercalate subject.split.replicas]

/-- The lines that tell the values bound to the marks, the first of which has the given number. -/
def boundLines : Nat → List Value → List String
  | _, [] => []
  | i, value :: values => s!"bind[{i}]:     {value.literalText}" :: boundLines (i + 1) values

/-- The line that tells how many candidates of a lookup are kept. -/
def keptLines (statement : Statement) : List String :=
  match statement.values with
  | _ :: .list candidates :: _ => [s!"in-values:   {candidates.length} kept"]
  | _ => []

/-- The lines that tell a statement. -/
def statementLines (lookup : Option Lookup) (statement : Statement) : List String :=
  [s!"query:       {statement.query}", s!"fetch size:  {statement.pageSize.toNat}"] ++
    boundLines 0 statement.values ++ if lookup.isSome then keptLines statement else []

/-- The statement that a report is about. -/
def Subject.statement? (subject : Subject) : Except Failure (Option Statement) :=
  subject.template.statement? subject.job.lookup subject.keys.shape subject.partitioner
    subject.split

/-- The report about a subject. -/
def reportOn (subject : Subject) : Report :=
  match subject.statement? with
  | .error failure => ⟨splitLines subject, some (.statement failure)⟩
  | .ok none => ⟨splitLines subject ++ ["no query: no in-values fall inside the split"], none⟩
  | .ok (some statement) =>
    ⟨splitLines subject ++ statementLines subject.job.lookup statement, none⟩

/-- The report that arguments ask for. -/
def report (files : String → Option String) (pageSize : Option String) (arguments : Arguments) :
    Report :=
  match subject files pageSize arguments with
  | .error fault => ⟨[], some fault⟩
  | .ok subject => reportOn subject

end RingScan.Plan
