import RingScan.Memory.Node
import RingScan.Proofs.Scan.Ledger
import RingScan.Reader.Basic

/-!
# Readers that share their counters

Any number of readers may share their counters while they are opened, asked for rows and drained in
any order, over clusters that change in between.  The counters are raised where things happen, which
is in several places: a reader that cannot be opened is counted where opening it ends, unless an
execution failed, and then it has been counted with the execution.  Still no failure is counted
twice, and each execution is accounted for.

What is counted can be read off what the readers have come to, so the invariant of a run says that
the shared counters stand where the accounts of all readers put them.

## Main definitions

* `Member`, `Refusal`: a reader with its answers so far, and an attempt to open one that failed.
* `Fleet`: the readers that share their counters.
* `Fleet.Call`, `Fleet.step`, `Fleet.follow`: calls to the readers of a fleet, in any order.
* `Fleet.ledger`: the accounts of all readers.

## Main statements

* `Fleet.Kept.step`: one call keeps the accounts of a fleet.
* `Fleet.balance`: the shared counters balance over every run.
-/

namespace RingScan

variable {ω ι : Type}

/-! ### Before the first page -/

/-- A statement is not put together because the key does not allow a lookup, or because a candidate
has no key. -/
theorem Template.fault_of_statement? {template : Template} {lookup : Option Lookup}
    {shape : KeyShape} {partitioner : Partitioner} {split : Split} {failure : Failure}
    (h : template.statement? lookup shape partitioner split = .error failure) :
    (∃ fault, failure = .configuration fault) ∨ ∃ fault, failure = .encoding fault := by
  cases lookup with
  | none => cases h
  | some lookup =>
    simp only [statement?, Lookup.retained] at h
    split at h
    · cases hkeep : lookup.keep shape partitioner split lookup.inValues with
      | error fault =>
        rw [hkeep] at h
        cases h
        exact .inr ⟨fault, rfl⟩
      | ok kept =>
        rw [hkeep] at h
        cases kept <;> cases h
    · cases h
      exact .inl ⟨_, rfl⟩

theorem Template.isIo_of_statement? {template : Template} {lookup : Option Lookup}
    {shape : KeyShape} {partitioner : Partitioner} {split : Split} {failure : Failure}
    (h : template.statement? lookup shape partitioner split = .error failure) :
    failure.isIo = false := by
  rcases fault_of_statement? h with ⟨fault, rfl⟩ | ⟨fault, rfl⟩ <;> rfl

namespace Reader

/-- A reader whose scan has not been started, or a failure that is not one of an execution. -/
def IsFresh : Except Failure (Reader ι) → Prop
  | .ok reader => reader.scan.stage = .unstarted ∧ reader.scan.stats = {}
  | .error failure => failure.isIo = false

theorem isFresh_assemble (services : Services ω ι) (job : Job) (split : Split)
    (partitioner : Partitioner) (connection : ι) (table : Table) :
    IsFresh (assemble services job split partitioner connection table) := by
  cases hkeys : table.keys with
  | error fault =>
    rw [assemble_of_keys_error hkeys]
    rfl
  | ok keys =>
    rw [assemble_of_keys hkeys]
    cases hstatement : (Template.ofJob services.filters job keys table).statement? job.lookup
        keys.shape partitioner split with
    | error failure => exact Template.isIo_of_statement? hstatement
    | ok statement => exact ⟨rfl, rfl⟩

/-- The stages before the first page count nothing, and do not fail with an execution. -/
theorem isFresh_prepare (services : Services ω ι) (job : Job) (split : Split)
    (shared : Shared ω ι) :
    IsFresh (prepare services job split shared).1 ∧
      (prepare services job split shared).2.tally = shared.tally := by
  simp only [prepare]
  cases settle job with
  | error fault => exact ⟨rfl, rfl⟩
  | ok partitioner =>
    simp only [Cluster.acquire]
    rcases Cluster.reach services.cluster.connect job.keyspace
      (Endpoint.ordered job.localAddresses split.replicas) .noReplicas shared.world shared.cache
      with ⟨fault | connection, world, cache⟩
    · exact ⟨rfl, rfl⟩
    · rcases hdescribe : services.cluster.describe job.keyspace job.table world with
        ⟨causes | table, world'⟩
      · simp only [hdescribe]
        exact ⟨rfl, trivial⟩
      · simp only [hdescribe]
        exact ⟨isFresh_assemble .., trivial⟩

end Reader

/-! ### Fleets -/

/-- A reader of a fleet. -/
structure Member (ω ι : Type) where
  /-- What it was opened with. -/
  services : Services ω ι
  /-- The reader. -/
  reader : Reader ι
  /-- Its answers so far, in order. -/
  answers : List (Except Failure Record) := []

/-- An attempt to open a reader that failed. -/
structure Refusal where
  /-- Why it failed. -/
  failure : Failure
  /-- What the scan had counted. -/
  stats : Stats

/-- Readers that share their counters. -/
structure Fleet (ω ι : Type) where
  /-- What the readers change. -/
  shared : Shared ω ι
  /-- The readers, in the order in which they were opened. -/
  members : List (Member ω ι) := []
  /-- The attempts to open a reader that failed. -/
  refusals : List Refusal := []

/-- What the scan of a reader has counted when opening it ends, also if it ends with a failure and
without a reader. -/
def Reader.openingStats (services : Services ω ι) (limit : ℕ) (job : Job) (split : Split)
    (shared : Shared ω ι) : Stats :=
  match prepare services job split shared with
  | (.error _, _) => {}
  | (.ok reader, shared) =>
    match reader.scan.start (services.cluster.session reader.connection) limit shared.world
        shared.tally.addScan with
    | none => {}
    | some outcome => outcome.scan.stats

namespace Fleet

/-- What can happen to a fleet. -/
inductive Call (ω ι : Type) where
  /-- Something changes that is not up to the readers, such as which endpoints are reachable, what
  is told about tables and which faults are to come. -/
  | change (world : ω) (cache : Cache ι)
  /-- A reader is opened. -/
  | start (services : Services ω ι) (limit : ℕ) (job : Job) (split : Split)
  /-- The reader at a position takes its next row. -/
  | next (limit i : ℕ)
  /-- The reader at a position is drained. -/
  | drain (limit count i : ℕ)

/-- The fleet after a call.  A call to a reader that does not exist does nothing. -/
def step (fleet : Fleet ω ι) : Call ω ι → Option (Fleet ω ι)
  | .change world cache => some { fleet with shared := ⟨world, cache, fleet.shared.tally⟩ }
  | .start services limit job split =>
    match Reader.start services limit job split fleet.shared with
    | none => none
    | some (.ok reader, shared) =>
      some { fleet with shared, members := fleet.members ++ [{ services, reader }] }
    | some (.error failure, shared) =>
      let stats := Reader.openingStats services limit job split fleet.shared
      some { fleet with shared, refusals := fleet.refusals ++ [{ failure, stats }] }
  | .next limit i =>
    match fleet.members[i]? with
    | none => some fleet
    | some ⟨services, reader, answers⟩ =>
      (reader.next services limit fleet.shared).map fun (answer, reader, shared) =>
        { fleet with shared, members := fleet.members.set i ⟨services, reader, answers ++ [answer]⟩ }
  | .drain limit count i =>
    match fleet.members[i]? with
    | none => some fleet
    | some ⟨services, reader, answers⟩ =>
      (reader.drain services limit count fleet.shared).map fun (more, reader, shared) =>
        { fleet with shared, members := fleet.members.set i ⟨services, reader, answers ++ more⟩ }

/-- The fleet after a number of calls, one after the other. -/
def follow (fleet : Fleet ω ι) : List (Call ω ι) → Option (Fleet ω ι)
  | [] => some fleet
  | call :: calls => (fleet.step call).bind fun next => next.follow calls

end Fleet

/-! ### Accounts -/

namespace Member

/-- The records that a reader has handed out. -/
def records (member : Member ω ι) : List Record :=
  member.answers.filterMap Except.toOption

/-- A page could not be fetched after the reader was opened. -/
def hasFailed (member : Member ω ι) : Bool :=
  member.reader.scan.stage.hasFailed

/-- A failure of an execution has been told or is still to be told. -/
def endedByIo (member : Member ω ι) : Bool :=
  member.answers.any Scan.tellsIo || member.reader.scan.stage.owesIo

/-- There was nothing to execute. -/
def hasNothing (member : Member ω ι) : Bool :=
  member.reader.scan.statement.isNone

/-- The account of a reader. -/
def ledger (member : Member ω ι) : Ledger where
  scans := 1
  executions := member.reader.scan.stats.executions
  retries := member.reader.scan.stats.retries
  pages := member.reader.scan.stats.pages
  rows := member.reader.scan.stats.rows
  bytes := Ledger.byteTotal member.records
  emptyLookups := if member.hasNothing then 1 else 0
  failures := member.reader.scan.failureCount

/-- Each execution of a reader led to a page, to another attempt or to its failure, which is one of
an execution, and each row was handed out. -/
structure Balanced (member : Member ω ι) : Prop where
  executions_eq : member.reader.scan.stats.executions =
    member.reader.scan.stats.pages + member.reader.scan.stats.retries +
      member.reader.scan.failureCount
  rows_eq : member.reader.scan.stats.rows = member.records.length
  hasFailed_eq : member.hasFailed = member.endedByIo

end Member

namespace Refusal

/-- The account of an attempt to open a reader. -/
def ledger (refusal : Refusal) : Ledger where
  scans := if refusal.failure.isIo then 1 else 0
  executions := refusal.stats.executions
  retries := refusal.stats.retries
  pages := refusal.stats.pages
  rows := refusal.stats.rows
  failures := 1

/-- Each execution led to a page, another attempt or the failure, and no row was handed out. -/
structure Balanced (refusal : Refusal) : Prop where
  executions_eq : refusal.stats.executions =
    refusal.stats.pages + refusal.stats.retries + if refusal.failure.isIo then 1 else 0
  rows_eq : refusal.stats.rows = 0

end Refusal

/-- The sum of accounts. -/
def Ledger.total {α : Type} (account : α → Ledger) : List α → Ledger
  | [] => 0
  | item :: items => account item + total account items

namespace Ledger

variable {α : Type} {account : α → Ledger}

theorem total_append_singleton (items : List α) (item : α) :
    total account (items ++ [item]) = total account items + account item := by
  induction items with
  | nil => simp only [List.nil_append, total, add_zero, zero_add]
  | cons other items ih => simp only [List.cons_append, total, ih, add_assoc]

/-- What is added to one account is added to the sum. -/
theorem total_set {items : List α} {i : ℕ} {item other : α} {l : Ledger}
    (h : items[i]? = some item) (hother : account other = account item + l) :
    total account (items.set i other) = total account items + l := by
  induction items generalizing i with
  | nil => cases h
  | cons first items ih =>
    cases i with
    | zero =>
      obtain rfl := Option.some.inj h
      simp only [List.set_cons_zero, total, hother, add_right_comm]
    | succ i => simp only [List.set_cons_succ, total, ih h, add_assoc]

end Ledger

namespace Fleet

/-- The accounts of all readers, and of the attempts to open one. -/
def ledger (fleet : Fleet ω ι) : Ledger :=
  .total Member.ledger fleet.members + .total Refusal.ledger fleet.refusals

/-- The accounts of a fleet are kept: the shared counters started from zero and stand where the
accounts put them, and every account is balanced. -/
structure Kept (fleet : Fleet ω ι) : Prop where
  tally_eq : fleet.shared.tally = ({} : Tally).post fleet.ledger
  members : ∀ member ∈ fleet.members, member.Balanced
  refusals : ∀ refusal ∈ fleet.refusals, refusal.Balanced

end Fleet

/-! ### Calls to one reader -/

namespace Reader

/-- A reader has given answers.  It has counted the records among them and what was executed for
them, and if it has failed, a failure of an execution has been told or is still to be told. -/
structure Gives (reader : Reader ι) (tally : Tally) (answers : List (Except Failure Record))
    (after : Reader ι) (tally' : Tally) : Prop where
  posts : reader.scan.Posts tally after.scan tally' (answers.filterMap Except.toOption)
  failsByIo : ∀ told, reader.scan.FailsByIo told →
    after.scan.FailsByIo (told || answers.any Scan.tellsIo)

theorem Gives.refl (reader : Reader ι) (tally : Tally) : reader.Gives tally [] reader tally where
  posts := Scan.Posts.refl ..
  failsByIo told h := by rwa [List.any_nil, Bool.or_false]

theorem Gives.trans {first second third : Reader ι} {tally tally' tally'' : Tally}
    {answers more : List (Except Failure Record)} (h : first.Gives tally answers second tally')
    (h' : second.Gives tally' more third tally'') :
    first.Gives tally (answers ++ more) third tally'' where
  posts := by
    rw [List.filterMap_append]
    exact h.posts.trans h'.posts
  failsByIo told hfails := by
    rw [List.any_append, ← Bool.or_assoc]
    exact h'.failsByIo _ (h.failsByIo told hfails)

variable {services : Services ω ι} {limit : ℕ} {reader after : Reader ι}
  {shared shared' : Shared ω ι}

/-- Taking the next row gives one answer. -/
theorem next_gives {answer : Except Failure Record}
    (h : reader.next services limit shared = some (answer, after, shared')) :
    reader.Gives shared.tally [answer] after shared'.tally := by
  simp only [next, take] at h
  cases hnext : reader.scan.next (services.cluster.session reader.connection) limit shared.world
      shared.tally with
  | none =>
    rw [hnext] at h
    cases h
  | some outcome =>
    have hposts := Scan.next_posts hnext
    have hfails (told : Bool) (htold : reader.scan.FailsByIo told) :=
      Scan.next_failsByIo hnext htold
    rw [hnext] at h
    rcases outcome with ⟨failure | _ | record, scan, world, tally⟩ <;> cases h <;>
      refine ⟨hposts, fun told htold => ?_⟩ <;>
      rw [List.any_cons, List.any_nil, Bool.or_false] <;>
      exact hfails told htold

/-- Draining a reader gives its answers. -/
theorem drain_gives {count : ℕ} {answers : List (Except Failure Record)}
    (h : reader.drain services limit count shared = some (answers, after, shared')) :
    reader.Gives shared.tally answers after shared'.tally := by
  induction count generalizing reader shared answers with
  | zero => cases h
  | succ count ih =>
    rw [drain] at h
    split at h
    · cases hnext : reader.next services limit shared with
      | none =>
        rw [hnext] at h
        cases h
      | some result =>
        obtain ⟨answer, first, shared₁⟩ := result
        rw [hnext] at h
        obtain ⟨⟨rest, result⟩, hdrain, heq⟩ := Option.map_eq_some_iff.1 h
        cases heq
        exact (next_gives hnext).trans (ih hdrain)
    · cases h
      exact Gives.refl ..

end Reader

/-- What a reader counts is added to its account, which stays balanced. -/
theorem Member.exists_ledger (services : Services ω ι) {reader after : Reader ι}
    (answers : List (Except Failure Record)) {more : List (Except Failure Record)}
    {tally tally' : Tally} (h : reader.Gives tally more after tally') :
    ∃ l, tally' = tally.post l ∧
      ledger ⟨services, after, answers ++ more⟩ = ledger ⟨services, reader, answers⟩ + l ∧
      (Balanced ⟨services, reader, answers⟩ → Balanced ⟨services, after, answers ++ more⟩) := by
  obtain ⟨pages, retries, failures, htally, hstats, hfailures, hstatement⟩ := h.posts
  have hnothing : hasNothing ⟨services, after, answers ++ more⟩ =
      hasNothing ⟨services, reader, answers⟩ := by simp only [hasNothing, hstatement]
  refine ⟨_, htally, ?_, fun hbalanced => ⟨?_, ?_, ?_⟩⟩
  · simp only [ledger, Ledger.add_def, hstats, Stats.post, Ledger.call, records,
      List.filterMap_append, Ledger.byteTotal_append, hnothing, hfailures, Nat.add_zero]
  · have hexecutions := hbalanced.executions_eq
    simp only [hstats, Stats.post, Ledger.call, hfailures] at hexecutions ⊢
    omega
  · have hrows := hbalanced.rows_eq
    simp only [hstats, Stats.post, Ledger.call, records, List.filterMap_append,
      List.length_append] at hrows ⊢
    rw [hrows]
  · rw [endedByIo, List.any_append]
    exact h.failsByIo _ hbalanced.hasFailed_eq

/-- The account of a reader that has just been opened. -/
theorem Member.ledger_of_started {services : Services ω ι} {reader : Reader ι} {pages retries : ℕ}
    (hstats : reader.scan.stats = ({} : Stats).post (.call pages retries 0 []))
    (hcount : reader.scan.failureCount = 0) :
    let member : Member ω ι := { services, reader }
    member.ledger = { scans := 1, emptyLookups := if member.hasNothing then 1 else 0 } +
        .call pages retries 0 [] ∧
      member.Balanced := by
  intro member
  refine ⟨?_, ⟨?_, ?_, Scan.failsByIo_of_failureCount hcount⟩⟩
  · simp only [member, ledger, hstats, hcount, Stats.post, Ledger.call, Ledger.add_def,
      Nat.zero_add, Nat.add_zero]
    rfl
  · simp only [member, hstats, hcount, Stats.post, Ledger.call, Nat.zero_add, Nat.add_zero]
  · simp only [member, hstats, Stats.post, Ledger.call, records, List.filterMap_nil, Nat.zero_add]

/-- The account of an attempt to open a reader that ended with an execution. -/
theorem Refusal.ledger_of_isIo {failure : Failure} {stats : Stats} {pages retries : ℕ}
    (hstats : stats = ({} : Stats).post (.call pages retries 1 [])) (hio : failure.isIo = true) :
    let refusal : Refusal := { failure, stats }
    refusal.ledger = { scans := 1 } + .call pages retries 1 [] ∧ refusal.Balanced := by
  intro refusal
  subst hstats
  refine ⟨?_, ⟨?_, rfl⟩⟩
  · simp only [refusal, ledger, hio, if_true, Stats.post, Ledger.call, Ledger.add_def,
      Nat.zero_add]
    rfl
  · simp only [refusal, hio, if_true, Stats.post, Ledger.call, Nat.zero_add]

/-- The account of an attempt to open a reader that ended before anything was executed. -/
theorem Refusal.ledger_of_not_isIo {failure : Failure} (hio : failure.isIo = false) :
    let refusal : Refusal := { failure, stats := {} }
    refusal.ledger = { failures := 1 } ∧ refusal.Balanced := by
  intro refusal
  refine ⟨?_, ⟨?_, rfl⟩⟩
  · simp only [refusal, ledger, hio, Bool.false_eq_true, if_false]
  · simp only [refusal, hio, Bool.false_eq_true, if_false]

/-- The shared counters have been raised by the account of a reader that has been opened, or of the
attempt to open one, whose scan had counted `stats`.  The account is balanced. -/
def Reader.Accounted (services : Services ω ι) (stats : Stats) (tally after : Tally) :
    Except Failure (Reader ι) → Prop
  | .ok reader =>
    let member : Member ω ι := { services, reader }
    after = tally.post member.ledger ∧ member.Balanced
  | .error failure =>
    let refusal : Refusal := { failure, stats }
    after = tally.post refusal.ledger ∧ refusal.Balanced

namespace Reader

variable {services : Services ω ι} {limit : ℕ} {job : Job} {split : Split}
  {shared after : Shared ω ι} {answer : Except Failure (Reader ι)}

/-- Opening ends before the first page, or where the scan has been started. -/
theorem start_cases (h : Reader.start services limit job split shared = some (answer, after)) :
    (∃ failure prepared, prepare services job split shared = (.error failure, prepared) ∧
      answer = .error failure ∧ after.tally = prepared.tally.addFailure ∧
      openingStats services limit job split shared = {}) ∨
    ∃ reader prepared outcome, prepare services job split shared = (.ok reader, prepared) ∧
      reader.scan.start (services.cluster.session reader.connection) limit prepared.world
        prepared.tally.addScan = some outcome ∧
      answer = outcome.answer.map (fun _ => { reader with scan := outcome.scan }) ∧
      after.tally = outcome.tally ∧
      openingStats services limit job split shared = outcome.scan.stats := by
  rcases hprepare : prepare services job split shared with ⟨failure | reader, prepared⟩
  · simp only [Reader.start, hprepare] at h
    cases h
    exact .inl ⟨failure, prepared, rfl, rfl, rfl, by simp only [openingStats, hprepare]⟩
  · simp only [Reader.start, hprepare] at h
    cases hscan : reader.scan.start (services.cluster.session reader.connection) limit
        prepared.world prepared.tally.addScan with
    | none =>
      rw [hscan] at h
      cases h
    | some outcome =>
      have hstats : openingStats services limit job split shared = outcome.scan.stats := by
        simp only [openingStats, hprepare, hscan]
      rw [hscan] at h
      refine .inr ⟨reader, prepared, outcome, rfl, hscan, ?_⟩
      rcases outcome with ⟨failure | _, scan, world, tally⟩ <;> cases h <;>
        exact ⟨rfl, rfl, hstats⟩

/-- A scan that has been started counts what is in the account. -/
theorem accounted_of_scan_start {σ : Type} {session : Session σ} {world : σ} {reader : Reader ι}
    {tally : Tally} {outcome : Scan.Outcome σ (Except Failure Unit)}
    (hstage : reader.scan.stage = .unstarted) (hzero : reader.scan.stats = {})
    (h : reader.scan.start session limit world tally.addScan = some outcome) :
    Accounted services outcome.scan.stats tally outcome.tally
      (outcome.answer.map fun _ => { reader with scan := outcome.scan }) := by
  obtain ⟨⟨pages, retries, failures, hcounted, hposted, hfailures, hstatement⟩, hcount, hfail⟩ :=
    Scan.start_posts hstage h
  have hunstarted : reader.scan.failureCount = 0 := by
    simp only [Scan.failureCount, hstage, Scan.Stage.hasFailed, Bool.false_eq_true, if_false]
  rw [hunstarted, hcount, Nat.zero_add] at hfailures
  rw [Tally.addScan_eq_post, Tally.post_post, ← hfailures, ← hstatement] at hcounted
  rw [hzero, ← hfailures] at hposted
  rcases outcome with ⟨failure | _, scan, world, tally⟩
  · obtain ⟨hio, hsome⟩ := hfail failure rfl
    rw [hstatement, hsome] at hcounted
    obtain ⟨hledger, hbalanced⟩ := Refusal.ledger_of_isIo hposted hio
    exact ⟨hcounted.trans (congrArg _ hledger.symm), hbalanced⟩
  · let opened : Reader ι := { reader with scan }
    have hopened : opened.scan.failureCount = 0 := hcount
    let member : Member ω ι := { services, reader := opened }
    obtain ⟨hledger, hbalanced⟩ : member.ledger = _ ∧ member.Balanced :=
      Member.ledger_of_started hposted hopened
    exact ⟨hcounted.trans (congrArg _ hledger.symm), hbalanced⟩

/-- Opening a reader counts what is in the account. -/
theorem accounted_start (h : Reader.start services limit job split shared = some (answer, after)) :
    Accounted services (openingStats services limit job split shared) shared.tally after.tally
      answer := by
  obtain ⟨hfresh, htally⟩ := isFresh_prepare services job split shared
  rcases start_cases h with ⟨failure, prepared, hprepare, rfl, hafter, hstats⟩ |
    ⟨reader, prepared, outcome, hprepare, hscan, rfl, hafter, hstats⟩ <;>
    rw [hprepare] at hfresh htally <;> change prepared.tally = shared.tally at htally
  · obtain ⟨hledger, hbalanced⟩ := Refusal.ledger_of_not_isIo hfresh
    rw [hstats, hafter, htally, Tally.addFailure_eq_post, ← hledger]
    exact ⟨rfl, hbalanced⟩
  · rw [htally] at hscan
    rw [hstats, hafter]
    exact accounted_of_scan_start hfresh.1 hfresh.2 hscan

end Reader

/-! ### Runs -/

namespace Fleet

variable {fleet after : Fleet ω ι}

theorem kept_nobody (world : ω) (cache : Cache ι) :
    Kept ({ shared := { world, cache } } : Fleet ω ι) :=
  ⟨rfl, fun _ h => absurd h List.not_mem_nil, fun _ h => absurd h List.not_mem_nil⟩

/-- A reader that has answered keeps the accounts of its fleet. -/
theorem Kept.answer (h : fleet.Kept) {i : ℕ} {services : Services ω ι} {reader reader' : Reader ι}
    {answers more : List (Except Failure Record)} {shared : Shared ω ι}
    (hmember : fleet.members[i]? = some ⟨services, reader, answers⟩)
    (hgives : reader.Gives fleet.shared.tally more reader' shared.tally) :
    Kept { fleet with
      shared, members := fleet.members.set i ⟨services, reader', answers ++ more⟩ } := by
  obtain ⟨l, htally, hledger, hbalanced⟩ :=
    Member.exists_ledger services answers hgives
  refine ⟨?_, fun member hmem => ?_, h.refusals⟩
  · rw [htally, h.tally_eq, Tally.post_post]
    simp only [ledger, Ledger.total_set hmember hledger, add_right_comm]
  · rcases List.mem_or_eq_of_mem_set hmem with hmem | rfl
    · exact h.members member hmem
    · exact hbalanced (h.members _ (List.mem_of_getElem? hmember))

/-- One call keeps the accounts of a fleet. -/
theorem Kept.step (h : fleet.Kept) {call : Call ω ι} (hstep : fleet.step call = some after) :
    after.Kept := by
  cases call with
  | change world cache =>
    cases hstep
    exact ⟨h.tally_eq, h.members, h.refusals⟩
  | start services limit job split =>
    simp only [Fleet.step] at hstep
    split at hstep
    · cases hstep
    · rename_i reader shared hstart
      cases hstep
      obtain ⟨htally, hbalanced⟩ := Reader.accounted_start hstart
      refine ⟨?_, ?_, h.refusals⟩
      · rw [htally, h.tally_eq, Tally.post_post]
        simp only [ledger, Ledger.total_append_singleton, add_right_comm]
      · exact List.forall_mem_append.2 ⟨h.members, List.forall_mem_singleton.2 hbalanced⟩
    · rename_i failure shared hstart
      cases hstep
      obtain ⟨htally, hbalanced⟩ := Reader.accounted_start hstart
      refine ⟨?_, h.members, ?_⟩
      · rw [htally, h.tally_eq, Tally.post_post]
        simp only [ledger, Ledger.total_append_singleton, add_assoc]
      · exact List.forall_mem_append.2 ⟨h.refusals, List.forall_mem_singleton.2 hbalanced⟩
  | next limit i =>
    simp only [Fleet.step] at hstep
    split at hstep
    · cases hstep
      exact h
    · rename_i services reader answers hmember
      obtain ⟨⟨answer, reader', shared⟩, hnext, heq⟩ := Option.map_eq_some_iff.1 hstep
      cases heq
      exact h.answer hmember (Reader.next_gives hnext)
  | drain limit count i =>
    simp only [Fleet.step] at hstep
    split at hstep
    · cases hstep
      exact h
    · rename_i services reader answers hmember
      obtain ⟨⟨more, reader', shared⟩, hdrain, heq⟩ := Option.map_eq_some_iff.1 hstep
      cases heq
      exact h.answer hmember (Reader.drain_gives hdrain)

/-- Any number of calls keep the accounts of a fleet. -/
theorem Kept.follow (h : fleet.Kept) {calls : List (Call ω ι)}
    (hfollow : fleet.follow calls = some after) : after.Kept := by
  induction calls generalizing fleet with
  | nil =>
    cases hfollow
    exact h
  | cons call calls ih =>
    obtain ⟨next, hstep, hrest⟩ := Option.bind_eq_some_iff.1 hfollow
    exact ih (h.step hstep) hrest

/-! ### The balance -/

/-- The records that all readers have handed out. -/
def records (fleet : Fleet ω ι) : List Record :=
  fleet.members.flatMap Member.records

/-- The number of scans that an execution has ended, when a reader was opened or later. -/
def endedCount (fleet : Fleet ω ι) : ℕ :=
  fleet.refusals.countP (·.failure.isIo) + fleet.members.countP Member.endedByIo

theorem total_members {members : List (Member ω ι)} (h : ∀ member ∈ members, member.Balanced) :
    let l := Ledger.total Member.ledger members
    l.executions = l.pages + l.retries + members.countP Member.hasFailed ∧
      l.failures = members.countP Member.hasFailed ∧ l.scans = members.length ∧
      l.emptyLookups = members.countP Member.hasNothing ∧
      l.rows = (members.flatMap Member.records).length ∧
      l.bytes = Ledger.byteTotal (members.flatMap Member.records) := by
  induction members with
  | nil => exact ⟨rfl, rfl, rfl, rfl, rfl, rfl⟩
  | cons member members ih =>
    obtain ⟨hmember, hmembers⟩ := List.forall_mem_cons.1 h
    obtain ⟨hexecutions, hfailures, hscans, hempty, hrows, hbytes⟩ := ih hmembers
    have hfirst := hmember.executions_eq
    have hcount : member.reader.scan.failureCount = if member.hasFailed then 1 else 0 := rfl
    simp only [Ledger.total, Ledger.add_def, Member.ledger, List.countP_cons, List.length_cons,
      List.flatMap_cons, List.length_append, Ledger.byteTotal_append, hmember.rows_eq, hrows,
      hbytes, hscans, hempty, hfailures, hcount, and_true]
    exact ⟨by omega, by omega, by omega, by omega⟩

theorem total_refusals {refusals : List Refusal} (h : ∀ refusal ∈ refusals, refusal.Balanced) :
    let l := Ledger.total Refusal.ledger refusals
    l.executions = l.pages + l.retries + refusals.countP (·.failure.isIo) ∧
      l.failures = refusals.length ∧ l.scans = refusals.countP (·.failure.isIo) ∧
      l.emptyLookups = 0 ∧ l.rows = 0 ∧ l.bytes = 0 := by
  induction refusals with
  | nil => exact ⟨rfl, rfl, rfl, rfl, rfl, rfl⟩
  | cons refusal refusals ih =>
    obtain ⟨hrefusal, hrefusals⟩ := List.forall_mem_cons.1 h
    obtain ⟨hexecutions, hfailures, hscans, hempty, hrows, hbytes⟩ := ih hrefusals
    have hfirst := hrefusal.executions_eq
    simp only [Ledger.total, Ledger.add_def, Refusal.ledger, List.countP_cons, List.length_cons,
      hrefusal.rows_eq, hrows, hbytes, hscans, hempty, hfailures, Nat.add_zero, and_true]
    exact ⟨by omega, by omega, by omega⟩

/-- **The shared counters balance over every run.**  Readers that share counters are opened, asked
for rows and drained in any order; the counters start from zero and none of them gets too large.
Then each execution led to a page, to another attempt or to the end of a scan; each reader that was
not opened, or failed later, has been counted as one failure; the scans are the readers that were
opened or ended by an execution while they were; and the rows are those that were handed out.  The
counters of each reader balance as well. -/
theorem balance {world : ω} {cache : Cache ι} {calls : List (Call ω ι)} {fleet : Fleet ω ι}
    (hfollow : Fleet.follow { shared := { world, cache } } calls = some fleet)
    (hfits : fleet.ledger.Fits) :
    let tally := fleet.shared.tally
    tally.executions.toNat = tally.pages.toNat + tally.retries.toNat + fleet.endedCount ∧
      tally.failures.toNat = fleet.refusals.length + fleet.members.countP Member.hasFailed ∧
      tally.scans.toNat =
        fleet.members.length + fleet.refusals.countP (·.failure.isIo) ∧
      tally.emptyLookups.toNat = fleet.members.countP Member.hasNothing ∧
      tally.rows.toNat = fleet.records.length ∧
      tally.bytes.toNat = Ledger.byteTotal fleet.records ∧
      ∀ member ∈ fleet.members,
        let stats := member.reader.scan.stats
        stats.executions = stats.pages + stats.retries + (if member.hasFailed then 1 else 0) ∧
          stats.rows = member.records.length := by
  intro tally
  have hkept := (kept_nobody world cache).follow hfollow
  have htally : tally.toLedger = fleet.ledger := by
    rw [show tally = _ from hkept.tally_eq, Tally.toLedger_post hfits]
  obtain ⟨hexecutions, hfailures, hscans, hempty, hrows, hbytes⟩ := total_members hkept.members
  obtain ⟨hexecutions', hfailures', hscans', hempty', hrows', hbytes'⟩ :=
    total_refusals hkept.refusals
  have hledger : fleet.ledger = .total Member.ledger fleet.members +
      .total Refusal.ledger fleet.refusals := rfl
  rw [hledger, Ledger.add_def, hfailures, hscans, hempty, hrows, hbytes, hfailures', hscans',
    hempty', hrows', hbytes', Tally.toLedger, Ledger.mk.injEq] at htally
  obtain ⟨scans_eq, executions_eq, retries_eq, pages_eq, rows_eq, bytes_eq, empty_eq, failures_eq⟩ :=
    htally
  refine ⟨?_, ?_, ?_, empty_eq, rows_eq, bytes_eq, fun member hmember => ?_⟩
  · have hended : fleet.members.countP Member.hasFailed = fleet.members.countP Member.endedByIo :=
      List.countP_congr fun member hmember => by rw [(hkept.members member hmember).hasFailed_eq]
    rw [executions_eq, retries_eq, pages_eq, hexecutions, hexecutions', endedCount, hended]
    omega
  · rw [failures_eq, Nat.add_comm]
  · exact scans_eq
  · exact ⟨(hkept.members member hmember).executions_eq, (hkept.members member hmember).rows_eq⟩

/-- One reader is opened at the second attempt and fails when it looks behind its first row, and
another one has no replica that accepts a connection. -/
theorem balance_of_failed_prefetch :
    let column : Column := { name := "k", type := .int }
    let row : Cells := .ofList [("k", some [7])]
    let store : Memory.Store := .fixed [[row], [row]]
    let faults := [some (.noHost "none"), none, some (.other ⟨"lost", []⟩)]
    let world : Memory.World :=
      ⟨{ down := [("b", ⟨"down", []⟩)] }, { store, faults }, .ok ⟨[column], [], [column]⟩⟩
    let services : Services Memory.World ℕ := { cluster := Memory.cluster }
    let job : Job := { keyspace := "ks", table := "t" }
    let calls : List (Call Memory.World ℕ) :=
      [.start services 1 job ⟨.long 0, .long 1, ["a"]⟩,
        .start services 1 job ⟨.long 1, .long 2, ["b"]⟩, .next 1 0, .drain 1 2 0]
    let tally : Tally := ⟨1, 3, 1, 1, 1, 1, 0, 2⟩
    ∃ fleet : Fleet Memory.World ℕ, Fleet.follow { shared := { world } } calls = some fleet ∧
      fleet.shared.tally = tally ∧ fleet.ledger.Fits ∧
      fleet.shared.tally.executions.toNat = fleet.shared.tally.pages.toNat +
        fleet.shared.tally.retries.toNat + fleet.endedCount ∧
      fleet.shared.tally.failures.toNat =
        fleet.refusals.length + fleet.members.countP Member.hasFailed := by
  intro column row store faults world services job calls tally
  let ledger : Ledger := ⟨1, 3, 1, 1, 1, 1, 0, 2⟩
  have hrun : (Fleet.follow { shared := { world } } calls).map
      (fun fleet => (fleet.shared.tally, fleet.ledger)) = some (tally, ledger) := by decide
  obtain ⟨fleet, hfollow, heq⟩ := Option.map_eq_some_iff.1 hrun
  obtain ⟨htally, hledger⟩ := Prod.mk.inj heq
  have hfits : fleet.ledger.Fits := by
    rw [hledger]
    constructor <;> decide
  obtain ⟨hexecutions, hfailures, -⟩ := balance hfollow hfits
  exact ⟨fleet, hfollow, htally, hfits, hexecutions, hfailures⟩

end Fleet

end RingScan
