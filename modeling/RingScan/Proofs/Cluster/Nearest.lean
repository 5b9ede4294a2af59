import RingScan.Memory.Node

/-!
# The nearest replica

A reader borrows the connection to the first of its replicas that has one or accepts one, the local
replicas coming first.  To say which endpoints are asked for a connection, the cluster is made to
record every call.  As long as endpoints refuse, the cache stays as it is, so a search changes it
at its end only, and by one connection at most.

## Main definitions

* `Cluster.Event`, `Cluster.recorded`: the calls of a cluster, and the cluster with a record of
  them.
* `Cluster.Search`: the attempts to connect that lead to a result.
* `Cluster.isUsable`: an endpoint has a connection or accepts one.

## Main statements

* `Cluster.exists_search`: which search acquiring a connection makes.
* `Cluster.acquire_nearest`: the connection is that of the first usable replica.
-/

namespace RingScan

variable {ω ι : Type}

/-! ### Calls of a cluster -/

namespace Cluster

/-- An attempt to connect. -/
structure Attempt (ι : Type) where
  /-- What a connection was to be made to. -/
  target : Target
  /-- The connection, or why there is none. -/
  answer : Except Causes ι

/-- A call of a cluster and its answer. -/
inductive Event (ι : Type) where
  /-- An attempt to connect. -/
  | connect (attempt : Attempt ι)
  /-- A request for the columns of a table. -/
  | describe (keyspace table : String) (answer : Except Causes Table)
  /-- An execution of a statement in the session of a connection. -/
  | execute (connection : ι) (statement : Statement) (from? : Option Bytes)
    (answer : Except ExecutionFault Page)

/-- The cluster with a record of every call, in order. -/
def recorded (cluster : Cluster ω ι) : Cluster (List (Event ι) × ω) ι where
  connect target world :=
    let (answer, after) := cluster.connect target world.2
    (answer, world.1 ++ [.connect ⟨target, answer⟩], after)
  describe keyspace table world :=
    let (answer, after) := cluster.describe keyspace table world.2
    (answer, world.1 ++ [.describe keyspace table answer], after)
  session connection := {
    execute := fun statement from? world =>
      let (answer, after) := (cluster.session connection).execute statement from? world.2
      (answer, world.1 ++ [.execute connection statement from? answer], after)
    pause := fun delay world => (world.1, (cluster.session connection).pause delay world.2) }

/-! ### Searches -/

/-- The attempts that are made in search of a connection to the first of some endpoints that has one
or accepts one, and what they lead to. -/
inductive Search (connect : Target → ω → Except Causes ι × ω) (keyspace : String)
    (cache : Cache ι) : List String → ConnectionFault → ω → List (Attempt ι) →
      Except ConnectionFault ι × ω × Cache ι → Prop
  | nowhere {fault : ConnectionFault} {world : ω} :
      Search connect keyspace cache [] fault world [] (.error fault, world, cache)
  | cached {endpoint : String} {endpoints : List String} {fault : ConnectionFault} {world : ω}
      {connection : ι} (hfind : cache.find? ⟨endpoint, keyspace⟩ = some connection) :
      Search connect keyspace cache (endpoint :: endpoints) fault world []
        (.ok connection, world, cache)
  | accepted {endpoint : String} {endpoints : List String} {fault : ConnectionFault}
      {world after : ω} {connection : ι} (hfind : cache.find? ⟨endpoint, keyspace⟩ = none)
      (hconnect : connect ⟨endpoint, keyspace⟩ world = (.ok connection, after)) :
      Search connect keyspace cache (endpoint :: endpoints) fault world
        [⟨⟨endpoint, keyspace⟩, .ok connection⟩]
        (.ok connection, after, (cache.keep ⟨endpoint, keyspace⟩ connection).2)
  | refused {endpoint : String} {endpoints : List String} {fault : ConnectionFault}
      {world after : ω} {causes : Causes} {attempts : List (Attempt ι)}
      {result : Except ConnectionFault ι × ω × Cache ι}
      (hfind : cache.find? ⟨endpoint, keyspace⟩ = none)
      (hconnect : connect ⟨endpoint, keyspace⟩ world = (.error causes, after))
      (hrest : Search connect keyspace cache endpoints (.refused causes) after attempts result) :
      Search connect keyspace cache (endpoint :: endpoints) fault world
        (⟨⟨endpoint, keyspace⟩, .error causes⟩ :: attempts) result

variable {connect : Target → ω → Except Causes ι × ω} {keyspace : String} {cache : Cache ι}
  {endpoints : List String} {fault : ConnectionFault} {world : ω} {attempts : List (Attempt ι)}
  {result : Except ConnectionFault ι × ω × Cache ι}

/-- Reaching for a connection is a search. -/
theorem exists_search (connect : Target → ω → Except Causes ι × ω) (keyspace : String)
    (cache : Cache ι) (endpoints : List String) (fault : ConnectionFault) (world : ω) :
    ∃ attempts, Search connect keyspace cache endpoints fault world attempts
      (reach connect keyspace endpoints fault world cache) := by
  induction endpoints generalizing fault world with
  | nil => exact ⟨[], .nowhere⟩
  | cons endpoint endpoints ih =>
    cases hfind : cache.find? ⟨endpoint, keyspace⟩ with
    | some connection =>
      simp only [reach, Checkout.run, hfind]
      exact ⟨[], .cached hfind⟩
    | none =>
      rcases hconnect : connect ⟨endpoint, keyspace⟩ world with ⟨causes | connection, after⟩
      · simp only [reach, Checkout.run, hfind, hconnect]
        obtain ⟨attempts, hrest⟩ := ih (.refused causes) after
        exact ⟨_, .refused hfind hconnect hrest⟩
      · simp only [reach, Checkout.run, hfind, hconnect, (Cache.keep_of_none hfind connection).1]
        exact ⟨_, .accepted hfind hconnect⟩

/-- A search records its attempts, and nothing else. -/
theorem Search.reach_recorded {cluster : Cluster ω ι}
    (h : Search cluster.connect keyspace cache endpoints fault world attempts result)
    (events : List (Event ι)) :
    reach cluster.recorded.connect keyspace endpoints fault (events, world) cache =
      (result.1, (events ++ attempts.map .connect, result.2.1), result.2.2) := by
  induction h generalizing events with
  | nowhere => rw [reach, List.map_nil, List.append_nil]
  | cached hfind => simp only [reach, Checkout.run, hfind, List.map_nil, List.append_nil]
  | accepted hfind hconnect =>
    simp only [reach, Checkout.run, hfind, recorded, hconnect, (Cache.keep_of_none hfind _).1,
      List.map_cons, List.map_nil]
  | refused hfind hconnect _ ih =>
    simp only [reach, Checkout.run, hfind, recorded, hconnect] at ih ⊢
    rw [ih, List.append_assoc, List.singleton_append, List.map_cons]

/-- A search asks some of the endpoints, and it keeps at most one connection, which one of the
endpoints has accepted. -/
theorem Search.cache_cases
    (h : Search connect keyspace cache endpoints fault world attempts result) :
    result.2.2 = cache ∨ ∃ endpoint ∈ endpoints, ∃ connection,
      cache.find? ⟨endpoint, keyspace⟩ = none ∧
      result.2.2.entries = (⟨endpoint, keyspace⟩, connection) :: cache.entries := by
  induction h with
  | nowhere | cached => exact .inl rfl
  | accepted hfind hconnect =>
    exact .inr ⟨_, List.mem_cons_self, _, hfind, (Cache.keep_of_none hfind _).2⟩
  | refused hfind hconnect hrest ih =>
    refine ih.imp_right ?_
    rintro ⟨endpoint, hmem, hkept⟩
    exact ⟨endpoint, List.mem_cons_of_mem _ hmem, hkept⟩

theorem acquire_eq_mapError (connect : Target → ω → Except Causes ι × ω) (keyspace : String)
    (candidates : List String) (world : ω) (cache : Cache ι) :
    acquire connect keyspace candidates world cache =
      ((reach connect keyspace candidates .noReplicas world cache).1.mapError
          (.connection candidates),
        (reach connect keyspace candidates .noReplicas world cache).2) := by
  rw [acquire]
  rcases reach connect keyspace candidates .noReplicas world cache with
    ⟨fault | connection, after, kept⟩ <;> rfl

/-- Acquiring a connection fails in one way only. -/
theorem fault_of_acquire {candidates : List String} {failure : Failure}
    (h : (acquire connect keyspace candidates world cache).1 = .error failure) :
    ∃ fault, failure = .connection candidates fault := by
  rw [acquire_eq_mapError] at h
  cases hreach : (reach connect keyspace candidates .noReplicas world cache).1 with
  | ok connection =>
    rw [hreach] at h
    cases h
  | error fault =>
    rw [hreach] at h
    cases h
    exact ⟨fault, rfl⟩

/-- Acquiring a connection adds at most one to the cache, to one of the candidates that had none. -/
theorem cache_of_acquire (connect : Target → ω → Except Causes ι × ω) (keyspace : String)
    (candidates : List String) (world : ω) (cache : Cache ι) :
    (acquire connect keyspace candidates world cache).2.2 = cache ∨
      ∃ endpoint ∈ candidates, ∃ connection, cache.find? ⟨endpoint, keyspace⟩ = none ∧
        (acquire connect keyspace candidates world cache).2.2.entries =
          (⟨endpoint, keyspace⟩, connection) :: cache.entries := by
  obtain ⟨attempts, hsearch⟩ := exists_search connect keyspace cache candidates .noReplicas world
  rw [acquire_eq_mapError]
  exact hsearch.cache_cases

/-! ### Usable endpoints -/

/-- It is settled which endpoints accept a connection in worlds of some sort, and connecting does
not lead out of these. -/
structure Steady (connect : Target → ω → Except Causes ι × ω) (keyspace : String)
    (reachable : String → Bool) (sort : ω → Prop) : Prop where
  isOk_eq : ∀ {world}, sort world → ∀ endpoint,
    (connect ⟨endpoint, keyspace⟩ world).1.isOk = reachable endpoint
  sort_connect : ∀ {world}, sort world → ∀ endpoint,
    sort (connect ⟨endpoint, keyspace⟩ world).2

/-- An endpoint has a connection, or it accepts one. -/
def isUsable (cache : Cache ι) (keyspace : String) (reachable : String → Bool)
    (endpoint : String) : Bool :=
  (cache.find? ⟨endpoint, keyspace⟩).isSome || reachable endpoint

variable {reachable : String → Bool} {sort : ω → Prop}

/-- If an endpoint is usable, a search leads to the first one that is.  The endpoints before it have
refused, and it is asked itself unless it has a connection. -/
theorem Search.of_usable
    (hsteady : Steady connect keyspace reachable sort)
    (h : Search connect keyspace cache endpoints fault world attempts result)
    (hworld : sort world) {endpoint : String}
    (hfirst : endpoints.find? (isUsable cache keyspace reachable) = some endpoint) :
    attempts.map (·.target) =
        ((endpoints.takeWhile (!isUsable cache keyspace reachable ·) ++ [endpoint]).filter
          fun other => (cache.find? ⟨other, keyspace⟩).isNone).map (⟨·, keyspace⟩) ∧
      ∃ connection, result.1 = .ok connection ∧
        (cache.find? ⟨endpoint, keyspace⟩ = some connection ∧ result.2.2 = cache ∨
          cache.find? ⟨endpoint, keyspace⟩ = none ∧
          attempts.getLast? = some ⟨⟨endpoint, keyspace⟩, .ok connection⟩ ∧
          result.2.2.entries = (⟨endpoint, keyspace⟩, connection) :: cache.entries) := by
  induction h with
  | nowhere => cases hfirst
  | @cached other _ _ _ connection hfind =>
    have husable : isUsable cache keyspace reachable other = true := by
      rw [isUsable, hfind, Option.isSome_some, Bool.true_or]
    rw [List.find?_cons_of_pos husable] at hfirst
    cases hfirst
    refine ⟨?_, connection, rfl, .inl ⟨hfind, rfl⟩⟩
    simp only [List.takeWhile_cons, husable, Bool.not_true, Bool.false_eq_true, if_false,
      List.nil_append, List.filter_cons, hfind, Option.isNone_some, List.filter_nil, List.map_nil]
  | @accepted other _ _ _ _ connection hfind hconnect =>
    have husable : isUsable cache keyspace reachable other = true := by
      rw [isUsable, ← hsteady.isOk_eq hworld other, hconnect, Except.isOk, Except.toBool,
        Bool.or_true]
    rw [List.find?_cons_of_pos husable] at hfirst
    cases hfirst
    refine ⟨?_, connection, rfl, .inr ⟨hfind, rfl, (Cache.keep_of_none hfind connection).2⟩⟩
    simp only [List.takeWhile_cons, husable, Bool.not_true, Bool.false_eq_true, if_false,
      List.nil_append, List.filter_cons, hfind, Option.isNone_none, if_true, List.filter_nil,
      List.map_cons, List.map_nil]
  | @refused other _ _ _ _ _ _ _ hfind hconnect hrest ih =>
    have hafter := hsteady.sort_connect hworld other
    rw [hconnect] at hafter
    have husable : isUsable cache keyspace reachable other = false := by
      rw [isUsable, hfind, ← hsteady.isOk_eq hworld other, hconnect]
      rfl
    rw [List.find?_cons_of_neg (by rw [husable]; exact Bool.false_ne_true)] at hfirst
    obtain ⟨htargets, connection, hresult, hkept⟩ := ih hafter hfirst
    refine ⟨?_, connection, hresult, hkept.imp_right ?_⟩
    · simp only [List.takeWhile_cons, husable, Bool.not_false, if_true, List.cons_append,
        List.filter_cons, hfind, Option.isNone_none, List.map_cons, htargets]
    · rintro ⟨hnone, hlast, hentries⟩
      exact ⟨hnone, by rw [List.getLast?_cons, hlast, Option.getD_some], hentries⟩

/-- If no endpoint is usable, a search asks all of them, and what is reported is why the last one
has refused. -/
theorem Search.of_not_usable
    (hsteady : Steady connect keyspace reachable sort)
    (h : Search connect keyspace cache endpoints fault world attempts result)
    (hworld : sort world)
    (hnone : endpoints.find? (isUsable cache keyspace reachable) = none) :
    attempts.map (·.target) = endpoints.map (⟨·, keyspace⟩) ∧ result.2.2 = cache ∧
      (endpoints = [] ∧ result.1 = .error fault ∨
        ∃ target causes, attempts.getLast? = some ⟨target, .error causes⟩ ∧
          result.1 = .error (.refused causes)) := by
  induction h with
  | nowhere => exact ⟨rfl, rfl, .inl ⟨rfl, rfl⟩⟩
  | @cached other _ _ _ _ hfind =>
    have husable := (List.find?_eq_none.1 hnone) other List.mem_cons_self
    rw [isUsable, hfind, Option.isSome_some, Bool.true_or] at husable
    exact absurd rfl husable
  | @accepted other _ _ _ _ _ hfind hconnect =>
    have husable := (List.find?_eq_none.1 hnone) other List.mem_cons_self
    rw [isUsable, ← hsteady.isOk_eq hworld other, hconnect, Except.isOk, Except.toBool,
      Bool.or_true] at husable
    exact absurd rfl husable
  | @refused other endpoints _ _ _ causes attempts _ hfind hconnect hrest ih =>
    have hafter := hsteady.sort_connect hworld other
    rw [hconnect] at hafter
    obtain ⟨htargets, hcache, hfault⟩ := ih hafter (List.find?_eq_none.2 fun endpoint hmem =>
      (List.find?_eq_none.1 hnone) endpoint (List.mem_cons_of_mem _ hmem))
    refine ⟨by rw [List.map_cons, List.map_cons, htargets], hcache, .inr ?_⟩
    rcases hfault with ⟨rfl, hresult⟩ | ⟨target, last, hlast, hresult⟩
    · rw [List.map_nil, List.map_eq_nil_iff] at htargets
      exact ⟨_, causes, by rw [htargets, List.getLast?_singleton], hresult⟩
    · exact ⟨target, last, by rw [List.getLast?_cons, hlast, Option.getD_some], hresult⟩

end Cluster

/-! ### Replicas in their order -/

namespace Endpoint

/-- All endpoints are tried, and no other ones. -/
theorem mem_ordered_iff {locals endpoints : List String} {endpoint : String} :
    endpoint ∈ ordered locals endpoints ↔ endpoint ∈ endpoints := by
  rw [ordered, List.mem_append, List.mem_filter, List.mem_filter, ← and_or_left]
  cases isLocal locals endpoint <;> simp

theorem filter_isLocal_ordered (locals endpoints : List String) :
    (ordered locals endpoints).filter (isLocal locals) = endpoints.filter (isLocal locals) := by
  simp [ordered, List.filter_filter]

theorem filter_not_isLocal_ordered (locals endpoints : List String) :
    (ordered locals endpoints).filter (!isLocal locals ·) =
      endpoints.filter (!isLocal locals ·) := by
  simp [ordered, List.filter_filter]

/-- No endpoint that is not local comes before a local one. -/
theorem pairwise_ordered (locals endpoints : List String) :
    (ordered locals endpoints).Pairwise fun first second =>
      isLocal locals second = true → isLocal locals first = true := by
  rw [ordered, List.pairwise_append]
  refine ⟨?_, ?_, ?_⟩
  · exact List.pairwise_of_forall_mem_list fun first hfirst _ _ _ => (List.mem_filter.1 hfirst).2
  · refine List.pairwise_of_forall_mem_list fun _ _ second hsecond hlocal => ?_
    have hremote := (List.mem_filter.1 hsecond).2
    rw [hlocal] at hremote
    cases hremote
  · exact fun first hfirst _ _ _ => (List.mem_filter.1 hfirst).2

/-- If the first endpoint with a property is not local, no local one has it. -/
theorem eq_false_of_find?_ordered {locals endpoints : List String} {p : String → Bool}
    {endpoint : String} (hfirst : (ordered locals endpoints).find? p = some endpoint)
    (hremote : isLocal locals endpoint = false) {other : String} (hmem : other ∈ endpoints)
    (hlocal : isLocal locals other = true) : p other = false := by
  rw [ordered, List.find?_append] at hfirst
  cases hfind : (endpoints.filter (isLocal locals)).find? p with
  | some found =>
    rw [hfind, Option.some_or, Option.some.injEq] at hfirst
    have hfound := (List.mem_filter.1 (List.mem_of_find?_eq_some hfind)).2
    rw [hfirst, hremote] at hfound
    cases hfound
  | none =>
    rw [← Bool.not_eq_true]
    exact List.find?_eq_none.1 hfind other (List.mem_filter.2 ⟨hmem, hlocal⟩)

end Endpoint

namespace Cluster

/-- **A reader borrows the nearest usable replica.**  Let it be settled which endpoints are
reachable.  The replicas are tried local ones first, and otherwise in the order in which they are
given.  If one of them is usable, the connection of the first usable one is borrowed; a connection
is asked for from the endpoints up to it that have none, in order, and at most the new connection
is added to the cache.  It is not a local one only if no local one is usable.  If none is usable,
all of them are asked, the failure tells why the last one has refused, and the cache is left as it
is. -/
theorem acquire_nearest {cluster : Cluster ω ι}
    (hsteady : Steady cluster.connect keyspace reachable sort) (hworld : sort world)
    (locals replicas : List String) (cache : Cache ι) :
    let order := Endpoint.ordered locals replicas
    let usable := isUsable cache keyspace reachable
    (order.filter (Endpoint.isLocal locals) = replicas.filter (Endpoint.isLocal locals) ∧
      order.filter (!Endpoint.isLocal locals ·) = replicas.filter (!Endpoint.isLocal locals ·) ∧
      order.Pairwise fun first second =>
        Endpoint.isLocal locals second = true → Endpoint.isLocal locals first = true) ∧
    ∃ (attempts : List (Attempt ι)) (result : Except Failure ι) (after : ω) (kept : Cache ι),
      acquire cluster.connect keyspace order world cache = (result, after, kept) ∧
      acquire cluster.recorded.connect keyspace order ([], world) cache =
        (result, (attempts.map .connect, after), kept) ∧
      (∀ endpoint, order.find? usable = some endpoint →
        attempts.map (·.target) = ((order.takeWhile (!usable ·) ++ [endpoint]).filter
          fun other => (cache.find? ⟨other, keyspace⟩).isNone).map (⟨·, keyspace⟩) ∧
        (∃ connection, result = .ok connection ∧
          (cache.find? ⟨endpoint, keyspace⟩ = some connection ∧ kept = cache ∨
            cache.find? ⟨endpoint, keyspace⟩ = none ∧
            attempts.getLast? = some ⟨⟨endpoint, keyspace⟩, .ok connection⟩ ∧
            kept.entries = (⟨endpoint, keyspace⟩, connection) :: cache.entries)) ∧
        (Endpoint.isLocal locals endpoint = false → ∀ other ∈ replicas,
          Endpoint.isLocal locals other = true → usable other = false)) ∧
      (order.find? usable = none →
        attempts.map (·.target) = order.map (⟨·, keyspace⟩) ∧ kept = cache ∧
        ∃ fault, result = .error (.connection order fault) ∧
          (order = [] ∧ fault = .noReplicas ∨
            ∃ target causes, attempts.getLast? = some ⟨target, .error causes⟩ ∧
              fault = .refused causes)) := by
  intro order usable
  refine ⟨⟨Endpoint.filter_isLocal_ordered .., Endpoint.filter_not_isLocal_ordered ..,
    Endpoint.pairwise_ordered ..⟩, ?_⟩
  obtain ⟨attempts, hsearch⟩ :=
    exists_search cluster.connect keyspace cache order .noReplicas world
  rcases hreach : reach cluster.connect keyspace order .noReplicas world cache with
    ⟨result, after, kept⟩
  rw [hreach] at hsearch
  refine ⟨attempts, result.mapError (.connection order), after, kept, ?_, ?_, ?_, ?_⟩
  · rw [acquire_eq_mapError, hreach]
  · rw [acquire_eq_mapError, hsearch.reach_recorded [], List.nil_append]
  · intro endpoint hfirst
    obtain ⟨htargets, connection, hresult, hkept⟩ := hsearch.of_usable hsteady hworld hfirst
    refine ⟨htargets, ⟨connection, ?_, hkept⟩, fun hremote other hmem hlocal => ?_⟩
    · rw [show result = .ok connection from hresult]
      rfl
    · exact Endpoint.eq_false_of_find?_ordered hfirst hremote hmem hlocal
  · intro hnone
    obtain ⟨htargets, hcache, hfault⟩ := hsearch.of_not_usable hsteady hworld hnone
    refine ⟨htargets, hcache, ?_⟩
    rcases hfault with ⟨hempty, hresult⟩ | ⟨target, causes, hlast, hresult⟩ <;>
      rw [show result = .error _ from hresult]
    · exact ⟨.noReplicas, rfl, .inl ⟨hempty, rfl⟩⟩
    · exact ⟨.refused causes, rfl, .inr ⟨target, causes, hlast, rfl⟩⟩

/-- In memory the endpoints that are not down are reachable. -/
theorem steady_memory (keyspace : String) (down : List (String × Causes)) :
    Steady Memory.cluster.connect keyspace (fun endpoint => (down.lookup endpoint).isNone)
      fun world => world.network.down = down where
  isOk_eq := by
    rintro world rfl endpoint
    simp only [Memory.cluster, Memory.World.connect, Memory.Network.connect]
    cases world.network.down.lookup endpoint <;> rfl
  sort_connect := by
    rintro world rfl endpoint
    simp only [Memory.cluster, Memory.World.connect, Memory.Network.connect]
    cases world.network.down.lookup endpoint <;> rfl

/-- Three attempts are refused, by the local replica and twice by one that is given twice, before a
replica is found that has a connection. -/
theorem acquire_nearest_cached :
    let down : List (String × Causes) := [("127.0.0.1", ⟨"", []⟩), ("far", ⟨"", []⟩)]
    let world : Memory.World := ⟨{ down }, { store := .fixed [] }, .error ⟨"", []⟩⟩
    let cache : Cache Nat := { entries := [(⟨"near", "ks"⟩, 7)] }
    ∃ (attempts : List (Attempt Nat)) (after : Memory.World),
      acquire Memory.cluster.recorded.connect "ks"
          (Endpoint.ordered [] ["far", "127.0.0.1", "far", "near"]) ([], world) cache =
        (.ok 7, (attempts.map .connect, after), cache) ∧
      attempts.map (·.target.endpoint) = ["127.0.0.1", "far", "far"] := by
  intro down world cache
  obtain ⟨-, attempts, result, after, kept, -, hrecorded, hnearest, -⟩ :=
    acquire_nearest (steady_memory "ks" down) (show world.network.down = down from rfl) []
      ["far", "127.0.0.1", "far", "near"] cache
  have horder : Endpoint.ordered [] ["far", "127.0.0.1", "far", "near"] =
      ["127.0.0.1", "far", "far", "near"] := by decide +kernel
  rw [horder] at hnearest
  obtain ⟨htargets, ⟨connection, rfl, hkept⟩, -⟩ := hnearest "near" (by decide +kernel)
  have hfind : cache.find? ⟨"near", "ks"⟩ = some 7 := by rfl
  rcases hkept with ⟨hsome, rfl⟩ | ⟨hnone, -⟩
  · cases hfind.symm.trans hsome
    refine ⟨attempts, after, hrecorded, ?_⟩
    have hendpoints := congrArg (List.map Target.endpoint) htargets
    rw [List.map_map] at hendpoints
    exact hendpoints.trans (by decide +kernel)
  · cases hfind.symm.trans hnone

end Cluster

end RingScan
