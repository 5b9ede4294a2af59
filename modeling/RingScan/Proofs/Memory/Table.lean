import RingScan.Proofs.Memory.Pages
import RingScan.Proofs.Row.Place

/-!
# Tables in memory

A table in memory holds the rows that it was made of, each with the token that its partition key has
on the ring.  A statement with the bounds of a split chooses those whose token lies in the split.
The cluster around such a table lets a reader connect as long as one of the endpoints that it tries
is not down.

## Main statements

* `Memory.Store.of_ofRows`: what the table of rows holds.
* `Memory.Store.exists_ofRows`: the table of rows that its key columns cover.
* `Memory.Store.chosen_bounds`: the rows that lie in a split.
* `Memory.World.exists_acquire`: connecting to one of several endpoints.
-/

namespace RingScan.Memory

namespace Store

variable {keys : KeyLayout} {rows : List Cells}

/-- A row is placed by its partition key, whose token it gets. -/
theorem place_eq_ok_iff {partitioner : Partitioner} {row : Cells} {stored : Stored} :
    place keys partitioner row = .ok stored ↔ keys.keyOf row = .ok stored.key ∧
      stored.token = partitioner.tokenOf stored.key ∧ stored.cells = row := by
  obtain ⟨token, key, cells⟩ := stored
  simp only [place, Traversal.bind_eq_ok_iff, Except.ok.injEq, Stored.mk.injEq]
  constructor
  · rintro ⟨found, hkey, rfl, rfl, rfl⟩
    exact ⟨hkey, rfl, rfl⟩
  · rintro ⟨hkey, rfl, rfl⟩
    exact ⟨key, hkey, rfl, rfl, rfl⟩

private theorem of_mapM_place {partitioner : Partitioner} {placed : List Stored}
    (h : rows.mapM (place keys partitioner) = .ok placed) :
    placed.map (·.cells) = rows ∧ ∀ stored ∈ placed, keys.keyOf stored.cells = .ok stored.key ∧
      stored.token = partitioner.tokenOf stored.key := by
  replace h := Traversal.mapM_eq_ok_iff.1 h
  induction h with
  | nil => exact ⟨rfl, fun _ hmem => absurd hmem List.not_mem_nil⟩
  | @cons row stored rows placed hrow _ ih =>
    obtain ⟨hkey, htoken, hcells⟩ := place_eq_ok_iff.1 hrow
    obtain ⟨hrows, hall⟩ := ih
    refine ⟨by rw [List.map_cons, hcells, hrows], List.forall_mem_cons.2 ⟨?_, hall⟩⟩
    exact ⟨hcells ▸ hkey, htoken⟩

/-- A table holds the rows that it was made of, each with its key and the token of the key. -/
theorem of_ofRows {partitioner : Partitioner} {store : Store}
    (h : ofRows keys partitioner rows = .ok store) :
    ∃ table, store = .table keys.shape table ∧ (table.map (·.cells)).Perm rows ∧
      ∀ stored ∈ table, keys.keyOf stored.cells = .ok stored.key ∧
        stored.token = partitioner.tokenOf stored.key := by
  let before (a b : Stored) : Bool := (a.token.compare b.token).isLE
  rw [ofRows] at h
  cases hplaced : rows.mapM (place keys partitioner) with
  | error fault =>
    rw [hplaced] at h
    cases h
  | ok placed =>
    rw [hplaced] at h
    cases h
    obtain ⟨hcells, hall⟩ := of_mapM_place hplaced
    have hsort : (placed.mergeSort before).Perm placed := List.mergeSort_perm placed before
    exact ⟨placed.mergeSort before, rfl, hcells ▸ hsort.map _, fun stored hmem =>
      hall stored (hsort.mem_iff.1 hmem)⟩

/-- A row that is stored under its key and the token of the key has this token. -/
theorem tokenOf_cells {partitioner : Partitioner} {stored : Stored}
    (h : keys.keyOf stored.cells = .ok stored.key ∧
      stored.token = partitioner.tokenOf stored.key) :
    keys.tokenOf partitioner stored.cells = .ok stored.token := by
  rw [h.2]
  exact KeyLayout.tokenOf_of_keyOf h.1 partitioner

/-- The table of rows that its key columns cover: it holds these rows, each with its token. -/
theorem exists_ofRows (h : ∀ row ∈ rows, keys.Covers row) (partitioner : Partitioner) :
    ∃ table, ofRows keys partitioner rows = .ok (.table keys.shape table) ∧
      (table.map (·.cells)).Perm rows ∧
      ∀ stored ∈ table, keys.tokenOf partitioner stored.cells = .ok stored.token := by
  obtain ⟨placed, hplaced⟩ : ∃ placed, rows.mapM (place keys partitioner) = .ok placed := by
    refine Traversal.exists_mapM_eq_ok_iff.2 fun row hmem => ?_
    obtain ⟨key, hkey, -⟩ := KeyLayout.exists_tokenOf (h row hmem) partitioner
    exact ⟨⟨partitioner.tokenOf key, key, row⟩, place_eq_ok_iff.2 ⟨hkey, rfl, rfl⟩⟩
  have hrows : ∃ store, ofRows keys partitioner rows = .ok store := ⟨_, by rw [ofRows, hplaced]; rfl⟩
  obtain ⟨store, hstore⟩ := hrows
  obtain ⟨table, rfl, hcells, hall⟩ := of_ofRows hstore
  exact ⟨table, hstore, hcells, fun stored hmem => tokenOf_cells (hall stored hmem)⟩

/-- The bounds of a split choose the rows whose token lies in it. -/
theorem chosen_bounds (shape : KeyShape) (table : List Stored) (split : Split) :
    chosen shape table split.bounds =
      .ok ((table.filter fun stored => split.contains stored.token).map (·.cells)) := by
  obtain ⟨start, stop, replicas⟩ := split
  cases start <;> cases stop <;> rfl

end Store

namespace World

/-- What a reader relies on: the store of the node, the description of the table, which endpoints
are down, and that no execution meets a fault. -/
structure Offers (store : Store) (table : Table) (down : List (String × Causes)) (world : World) :
    Prop where
  store_eq : world.node.store = store
  faces : world.node.Faces (Stream'.const none)
  table_eq : world.table = .ok table
  down_eq : world.network.down = down

variable {store : Store} {table : Table} {down : List (String × Causes)} {world : World}

theorem Offers.connect (h : world.Offers store table down) (target : Target) :
    (world.connect target).2.Offers store table down := by
  have hdown : (world.connect target).2.network.down = down := by
    rw [← h.down_eq, World.connect, Network.connect]
    cases world.network.down.lookup target.endpoint with
    | none => rfl
    | some causes => rfl
  exact ⟨h.store_eq, h.faces, h.table_eq, hdown⟩

/-- An endpoint that is not down accepts a connection. -/
theorem Offers.exists_connect (h : world.Offers store table down) {target : Target}
    (hup : down.lookup target.endpoint = none) :
    ∃ connection, (world.connect target).1 = .ok connection := by
  rw [← h.down_eq] at hup
  exact ⟨world.network.opened, by simp only [World.connect, Network.connect, hup]⟩

/-- One checkout gets a connection or leaves everything that a reader relies on as it is. -/
private theorem Offers.run (h : world.Offers store table down) (target : Target) (cache : Cache ℕ) :
    ∃ result world' cache', Checkout.run World.connect target world cache =
        (result, world', cache') ∧ world'.Offers store table down ∧ world'.node = world.node ∧
      (down.lookup target.endpoint = none → ∃ connection, result = .ok connection) := by
  cases hfind : cache.find? target with
  | some connection =>
    exact ⟨.ok connection, world, cache, by rw [Checkout.run, hfind], h, rfl, fun _ => ⟨_, rfl⟩⟩
  | none =>
    have hoffers := h.connect target
    have hnode : (world.connect target).2.node = world.node := rfl
    cases hconnect : (world.connect target).1 with
    | ok connection =>
      refine ⟨.ok (cache.keep target connection).1, (world.connect target).2,
        (cache.keep target connection).2, ?_, hoffers, hnode, fun _ => ⟨_, rfl⟩⟩
      rw [Checkout.run, hfind, ← Prod.eta (world.connect target), hconnect]
    | error causes =>
      refine ⟨.error causes, (world.connect target).2, cache, ?_, hoffers, hnode, fun hup => ?_⟩
      · rw [Checkout.run, hfind, ← Prod.eta (world.connect target), hconnect]
      · obtain ⟨connection, hok⟩ := h.exists_connect hup
        cases hconnect.symm.trans hok

private theorem Offers.reach (keyspace : String) {endpoint : String} {candidates : List String}
    (hmem : endpoint ∈ candidates) (hup : down.lookup endpoint = none) (fault : ConnectionFault)
    (h : world.Offers store table down) (cache : Cache ℕ) :
    ∃ connection world' cache', Cluster.reach World.connect keyspace candidates fault world cache =
        (.ok connection, world', cache') ∧ world'.Offers store table down ∧
      world'.node = world.node := by
  induction candidates generalizing fault world cache with
  | nil => exact absurd hmem List.not_mem_nil
  | cons first rest ih =>
    obtain ⟨result, world', cache', hrun, hoffers, hnode, hok⟩ := h.run ⟨first, keyspace⟩ cache
    cases result with
    | ok connection =>
      exact ⟨connection, world', cache', by rw [Cluster.reach, hrun], hoffers, hnode⟩
    | error causes =>
      have hrest : endpoint ∈ rest := by
        rcases List.mem_cons.1 hmem with rfl | hrest
        · obtain ⟨connection, heq⟩ := hok hup
          cases heq
        · exact hrest
      rw [Cluster.reach, hrun, ← hnode]
      exact ih hrest (.refused causes) hoffers cache'

/-- A reader that tries an endpoint which is not down is connected to some endpoint, and nothing is
executed for that. -/
theorem Offers.exists_acquire (h : world.Offers store table down) (keyspace : String)
    {endpoint : String} {candidates : List String} (hmem : endpoint ∈ candidates)
    (hup : down.lookup endpoint = none) (cache : Cache ℕ) :
    ∃ connection world' cache', Cluster.acquire World.connect keyspace candidates world cache =
        (.ok connection, world', cache') ∧ world'.Offers store table down ∧
      world'.node = world.node := by
  obtain ⟨connection, world', cache', hreach, hoffers, hnode⟩ :=
    Offers.reach keyspace hmem hup .noReplicas h cache
  exact ⟨connection, world', cache', by rw [Cluster.acquire, hreach], hoffers, hnode⟩

end World

end RingScan.Memory
