import Mathlib.Data.List.Basic
import RingScan.Memory.Store
import RingScan.Proofs.Row.Place
import RingScan.Query.Statement

/-!
# The candidates of a lookup

A lookup names one value for one field and several candidates for another, and the statement for a
split asks only for those candidates whose key lies in the split.  The key is put together from the
value and the candidate in this order, whatever the two fields are called.  So a row that meets the
lookup is asked for in the split that it lies in, provided that the fields are the columns of the
partition key in key order.  If they are named the other way round, the key that is looked at is not
that of the row, and the row may be passed over.

## Main definitions

* `Lookup.isInside`: the key of a candidate lies in a split.

## Main statements

* `Lookup.keep_eq_ok_iff`, `Lookup.keep_eq_error_iff`: the candidates that are kept, and why there
  may be none.
* `Template.statement?_eq_map`, `Template.statement?_eq_ok_iff`: the statement of a lookup.
* `Template.asks_iff_contains`: a row that meets a lookup is asked for in the split that it lies in.
-/

namespace RingScan

namespace Lookup

variable {lookup : Lookup} {shape : KeyShape} {partitioner : Partitioner} {split : Split}
  {candidates kept : List Value}

/-- The key of a candidate lies in a split. -/
def isInside (lookup : Lookup) (shape : KeyShape) (partitioner : Partitioner) (split : Split)
    (candidate : Value) : Bool :=
  match lookup.keyOf shape candidate with
  | .ok key => split.contains (partitioner.tokenOf key)
  | .error _ => false

theorem isInside_of_keyOf {candidate : Value} {key : Bytes}
    (h : lookup.keyOf shape candidate = .ok key) :
    lookup.isInside shape partitioner split candidate = split.contains (partitioner.tokenOf key) := by
  rw [isInside, h]

/-- All candidates are given their keys, and then those whose key lies in the split are kept. -/
theorem keep_eq_map (candidates : List Value) :
    lookup.keep shape partitioner split candidates =
      (candidates.mapM (lookup.keyOf shape)).map fun _ =>
        candidates.filter (lookup.isInside shape partitioner split) := by
  induction candidates with
  | nil => rfl
  | cons candidate candidates ih =>
    rw [keep, ih]
    cases hkey : lookup.keyOf shape candidate with
    | error fault =>
      rw [Traversal.mapM_cons_of_error hkey]
      rfl
    | ok key =>
      rw [Traversal.mapM_cons_of_ok hkey, List.filter_cons, isInside_of_keyOf hkey]
      cases candidates.mapM (lookup.keyOf shape) <;> rfl

/-- If all candidates have a key, those whose key lies in the split are kept. -/
theorem keep_eq_ok_iff :
    lookup.keep shape partitioner split candidates = .ok kept ↔
      (∀ candidate ∈ candidates, ∃ key, lookup.keyOf shape candidate = .ok key) ∧
        kept = candidates.filter (lookup.isInside shape partitioner split) := by
  rw [keep_eq_map, Traversal.map_eq_ok_iff, ← Traversal.exists_mapM_eq_ok_iff, exists_and_right,
    eq_comm]

/-- Otherwise the first candidate without a key gives the fault, whether its key would lie in the
split or not. -/
theorem keep_eq_error_iff {fault : EncodingFault} :
    lookup.keep shape partitioner split candidates = .error fault ↔
      Traversal.FailsFirst (lookup.keyOf shape) candidates fault := by
  rw [keep_eq_map, Traversal.map_eq_error_iff, Traversal.mapM_eq_error_iff]

/-- There is an answer if the partition key has several columns and all candidates have a key. -/
theorem retained_eq_ok_iff :
    lookup.retained shape partitioner split = .ok kept ↔
      shape.isComposite = true ∧
        (∀ candidate ∈ lookup.inValues, ∃ key, lookup.keyOf shape candidate = .ok key) ∧
        kept = lookup.inValues.filter (lookup.isInside shape partitioner split) := by
  rw [retained, ← keep_eq_ok_iff]
  split_ifs with hcomposite
  · rw [and_iff_right hcomposite, Traversal.mapError_eq_ok_iff]
  · exact iff_of_false nofun fun h => hcomposite h.1

/-- The key of a candidate is that of a row whose cells of the partition key hold the value and the
candidate, in this order. -/
theorem keyOf_eq_keyOf {keys : KeyLayout} {first second : Column} {row : Cells} {candidate : Value}
    {equalsCell inCell : Bytes} (hpartition : keys.partition = [first, second])
    (hequals : first.type.encode lookup.equalsValue = .ok equalsCell)
    (hin : second.type.encode candidate = .ok inCell)
    (hfirst : row.value? first.name = some equalsCell)
    (hsecond : row.value? second.name = some inCell) :
    lookup.keyOf keys.shape candidate = keys.keyOf row := by
  symm
  refine KeyLayout.keyOf_eq_encode (by rw [hpartition]; rfl) fun pair hmem => ?_
  rw [hpartition] at hmem
  rcases List.mem_pair.1 hmem with rfl | rfl
  · exact ⟨equalsCell, hequals, hfirst⟩
  · exact ⟨inCell, hin, hsecond⟩

end Lookup

/-! ### The statement of a lookup -/

/-- The statement that asks for given candidates of a lookup. -/
def Template.lookupStatement (template : Template) (lookup : Lookup) (candidates : List Value) :
    Statement :=
  ⟨String.ofList (template.lookupText lookup.equalsField lookup.inField),
    [lookup.equalsValue, .list candidates], template.pageSize⟩

/-- The statement of a lookup asks for the candidates that are kept, and there is none if there are
no such candidates. -/
theorem Template.statement?_eq_map (template : Template) (lookup : Lookup) (shape : KeyShape)
    (partitioner : Partitioner) (split : Split) :
    template.statement? (some lookup) shape partitioner split =
      (lookup.retained shape partitioner split).map fun kept =>
        if kept = [] then none else some (template.lookupStatement lookup kept) := by
  rw [statement?]
  rcases lookup.retained shape partitioner split with failure | - | ⟨candidate, candidates⟩ <;> rfl

/-- The statement of a lookup asks for the candidates whose key lies in the split, and there is none
if there are no such candidates. -/
theorem Template.statement?_eq_ok_iff {template : Template} {lookup : Lookup} {shape : KeyShape}
    {partitioner : Partitioner} {split : Split} {result : Option Statement} :
    template.statement? (some lookup) shape partitioner split = .ok result ↔
      shape.isComposite = true ∧
        (∀ candidate ∈ lookup.inValues, ∃ key, lookup.keyOf shape candidate = .ok key) ∧
        let inside := lookup.inValues.filter (lookup.isInside shape partitioner split)
        result = if inside = [] then none else some (template.lookupStatement lookup inside) := by
  rw [statement?_eq_map, Traversal.map_eq_ok_iff]
  constructor
  · rintro ⟨kept, hkept, rfl⟩
    obtain ⟨hcomposite, hall, rfl⟩ := Lookup.retained_eq_ok_iff.1 hkept
    exact ⟨hcomposite, hall, rfl⟩
  · rintro ⟨hcomposite, hall, rfl⟩
    exact ⟨_, Lookup.retained_eq_ok_iff.2 ⟨hcomposite, hall, rfl⟩, rfl⟩

/-! ### Rows that are asked for -/

namespace Memory.Store

variable {shape : KeyShape} {equals : Value} {items : List Value}

/-- A table in memory looks up the keys of all candidates that it is asked for. -/
theorem exists_wanted (h : ∀ item ∈ items, ∃ key, shape.encode [equals, item] = .ok key) :
    ∃ keys, wanted shape equals items = .ok keys ∧
      ∀ key, key ∈ keys ↔ ∃ item ∈ items, shape.encode [equals, item] = .ok key := by
  obtain ⟨keys, hkeys⟩ := Traversal.exists_mapM_eq_ok_iff.2 h
  exact ⟨keys, by rw [wanted, hkeys]; rfl, fun key => Traversal.mem_iff_of_mapM hkeys⟩

/-- A row with the key of one of the candidates is chosen. -/
theorem exists_chosen_of_mem {stored : Stored} {rows : List Stored} {item : Value}
    (h : ∀ item ∈ items, ∃ key, shape.encode [equals, item] = .ok key) (hitem : item ∈ items)
    (hkey : shape.encode [equals, item] = .ok stored.key) (hstored : stored ∈ rows) :
    ∃ found, chosen shape rows [equals, .list items] = .ok found ∧ stored.cells ∈ found := by
  obtain ⟨keys, hkeys, hmem⟩ := exists_wanted h
  refine ⟨(rows.filter fun row => keys.contains row.key).map (·.cells), ?_, ?_⟩
  · simp only [chosen, hkeys]
    rfl
  · refine List.mem_map_of_mem (List.mem_filter.2 ⟨hstored, ?_⟩)
    exact List.contains_iff_mem.2 ((hmem stored.key).2 ⟨item, hitem, hkey⟩)

end Memory.Store

/-- **A lookup passes over no row that it asks for**, as long as its two fields are the columns of
the partition key in key order.  If there is an answer for a split at all, a row whose cells hold
the value and a candidate has a token; the split contains the token if and only if there is a
statement and the candidate is among those bound to its list; and a table in memory that holds the
row answers this statement with it. -/
theorem Template.asks_iff_contains (template : Template) {keys : KeyLayout} {first second : Column}
    {lookup : Lookup} {partitioner : Partitioner} {split : Split} {result : Option Statement}
    {row : Cells} {candidate : Value} {equalsCell inCell : Bytes}
    (hpartition : keys.partition = [first, second]) (hequalsField : lookup.equalsField = first.name)
    (hinField : lookup.inField = second.name)
    (hresult : template.statement? (some lookup) keys.shape partitioner split = .ok result)
    (hcandidate : candidate ∈ lookup.inValues)
    (hequals : first.type.encode lookup.equalsValue = .ok equalsCell)
    (hequalsRow : row.value? lookup.equalsField = some equalsCell)
    (hin : second.type.encode candidate = .ok inCell)
    (hinRow : row.value? lookup.inField = some inCell) :
    ∃ key, keys.keyOf row = .ok key ∧
      keys.tokenOf partitioner row = .ok (partitioner.tokenOf key) ∧
      (split.contains (partitioner.tokenOf key) = true ↔
        ∃ candidates, result = some (template.lookupStatement lookup candidates) ∧
          candidate ∈ candidates) ∧
      ∀ statement rows, result = some statement →
        split.contains (partitioner.tokenOf key) = true →
        ⟨partitioner.tokenOf key, key, row⟩ ∈ rows →
          ∃ found, Memory.Store.chosen keys.shape rows statement.values = .ok found ∧
            row ∈ found := by
  obtain ⟨-, hall, hstatement⟩ := statement?_eq_ok_iff.1 hresult
  rw [hequalsField] at hequalsRow
  rw [hinField] at hinRow
  obtain ⟨key, hkey⟩ := hall candidate hcandidate
  have hrow : keys.keyOf row = .ok key :=
    (Lookup.keyOf_eq_keyOf hpartition hequals hin hequalsRow hinRow).symm.trans hkey
  let inside := lookup.inValues.filter (lookup.isInside keys.shape partitioner split)
  have hmem : candidate ∈ inside ↔ split.contains (partitioner.tokenOf key) = true := by
    rw [List.mem_filter, Lookup.isInside_of_keyOf hkey, and_iff_right hcandidate]
  refine ⟨key, hrow, ?_, ?_, ?_⟩
  · simp only [KeyLayout.tokenOf, hrow]
    rfl
  · rw [← hmem]
    constructor
    · intro hcontains
      refine ⟨inside, ?_, hcontains⟩
      rw [hstatement, if_neg (List.ne_nil_of_mem hcontains)]
    · rintro ⟨candidates, hsome, hcontains⟩
      rw [hstatement] at hsome
      split at hsome
      · cases hsome
      · obtain rfl : inside = candidates := by
          simpa [lookupStatement] using hsome
        exact hcontains
  · intro statement rows hsome hcontains hstored
    have hcandidates : candidate ∈ inside := hmem.2 hcontains
    rw [hstatement, if_neg (List.ne_nil_of_mem hcandidates)] at hsome
    obtain rfl := Option.some.inj hsome
    have hkeys : ∀ item ∈ inside, ∃ key, keys.shape.encode [lookup.equalsValue, item] = .ok key :=
      fun item hitem => hall item (List.mem_of_mem_filter hitem)
    let stored : Memory.Stored := ⟨partitioner.tokenOf key, key, row⟩
    have hstoredKey : keys.shape.encode [lookup.equalsValue, candidate] = .ok stored.key := hkey
    exact Memory.Store.exists_chosen_of_mem hkeys hcandidates hstoredKey hstored

/-- Three candidates, of which the second has its key in the split. -/
theorem Template.asks_iff_contains_second :
    let tenant : Column := { name := "tenant", type := .int }
    let bucket : Column := { name := "bucket", type := .int }
    let keys : KeyLayout := ⟨tenant, [bucket], []⟩
    let lookup : Lookup := ⟨"tenant", .int 1, "bucket", [.int 1, .int 2, .int 3]⟩
    let split : Split := ⟨.bytes [0, 4, 0, 0, 0, 1, 0, 0, 4, 0, 0, 0, 1, 0],
      .bytes [0, 4, 0, 0, 0, 1, 0, 0, 4, 0, 0, 0, 2, 0], []⟩
    let template : Template := ⟨['*'], ['t'], ['k'], [], 1⟩
    let row : Cells := .ofList [("tenant", some [0, 0, 0, 1]), ("bucket", some [0, 0, 0, 2])]
    template.statement? (some lookup) keys.shape .byteOrdered split =
        .ok (some (template.lookupStatement lookup [.int 2])) ∧
      ∃ key, keys.keyOf row = .ok key ∧ split.contains (.bytes key) = true := by
  intro tenant bucket keys lookup split template row
  have hstatement : template.statement? (some lookup) keys.shape .byteOrdered split =
      .ok (some (template.lookupStatement lookup [.int 2])) := by decide
  have hequals : tenant.type.encode lookup.equalsValue = .ok [0, 0, 0, 1] := by decide
  have hequalsRow : row.value? lookup.equalsField = some [0, 0, 0, 1] := by decide
  have hin : bucket.type.encode (.int 2) = .ok [0, 0, 0, 2] := by decide
  have hinRow : row.value? lookup.inField = some [0, 0, 0, 2] := by decide
  have hcandidate : Value.int 2 ∈ lookup.inValues := by decide
  obtain ⟨key, hkey, -, hiff, -⟩ :=
    template.asks_iff_contains rfl rfl rfl hstatement hcandidate hequals hequalsRow hin hinRow
  exact ⟨hstatement, key, hkey, hiff.2 ⟨[.int 2], rfl, List.mem_singleton_self _⟩⟩

/-- A job whose lookup names the columns of the partition key the other way round.  The row with
tenant `1` and bucket `2` meets the lookup and lies in the split, and there is no statement. -/
theorem Template.asks_of_swapped_fields_false :
    let tenant : Column := { name := "tenant", type := .int }
    let bucket : Column := { name := "bucket", type := .int }
    let keys : KeyLayout := ⟨tenant, [bucket], []⟩
    let table : Table := ⟨[tenant, bucket], [], [tenant, bucket]⟩
    let lookup : Lookup := ⟨"bucket", .int 2, "tenant", [.int 1]⟩
    let job : Job := { keyspace := "ks", table := "t", lookup := some lookup }
    let split : Split := ⟨.bytes [0, 4, 0, 0, 0, 1], .bytes [0, 4, 0, 0, 0, 2], []⟩
    let row : Cells := .ofList [("tenant", some [0, 0, 0, 1]), ("bucket", some [0, 0, 0, 2])]
    job.check = .ok () ∧ table.keys = .ok keys ∧
      (bucket.type.encode lookup.equalsValue = .ok [0, 0, 0, 2] ∧
        row.value? lookup.equalsField = some [0, 0, 0, 2]) ∧
      (tenant.type.encode (.int 1) = .ok [0, 0, 0, 1] ∧
        row.value? lookup.inField = some [0, 0, 0, 1]) ∧
      (∃ token, keys.tokenOf .byteOrdered row = .ok token ∧ split.contains token = true) ∧
      (ofJob Query.standardFilters job keys table).statement? job.lookup keys.shape .byteOrdered
        split = .ok none := by
  intro tenant bucket keys table lookup job split row
  have htoken : keys.tokenOf .byteOrdered row =
      .ok (.bytes [0, 4, 0, 0, 0, 1, 0, 0, 4, 0, 0, 0, 2, 0]) := by decide
  exact ⟨by decide, rfl, by decide, by decide, ⟨_, htoken, by decide⟩, by decide⟩

end RingScan
