import RingScan.Cluster.Checkout
import RingScan.Cluster.Endpoint
import RingScan.Cluster.Session
import RingScan.Table.Basic

/-!
# Clusters

What a reader needs of a cluster: connections to its endpoints, the columns of its tables, and
sessions.  All of it acts on one world.

## Main definitions

* `Cluster`: a cluster.
* `Cluster.reach`, `Cluster.acquire`: the connection to the first endpoint that has one or accepts
  one.
-/

namespace RingScan

/-- A cluster whose connections are of type `ι` and which acts on a world of type `ω`. -/
structure Cluster (ω ι : Type) where
  /-- Makes a connection. -/
  connect : Target → ω → Except Causes ι × ω
  /-- Fetches the columns of a table of a keyspace. -/
  describe : (keyspace table : String) → ω → Except Causes Table × ω
  /-- The session of a connection. -/
  session : ι → Session ω

namespace Cluster

variable {ω ι : Type} (connect : Target → ω → Except Causes ι × ω)

/-- The connection to the first of some endpoints that has one or accepts one.  If there is none,
what is reported is why the last one was refused, or `fault` if there is no endpoint. -/
def reach (keyspace : String) :
    List String → ConnectionFault → ω → Cache ι → Except ConnectionFault ι × ω × Cache ι
  | [], fault, world, cache => (.error fault, world, cache)
  | endpoint :: endpoints, _, world, cache =>
    match Checkout.run connect ⟨endpoint, keyspace⟩ world cache with
    | (.ok connection, world, cache) => (.ok connection, world, cache)
    | (.error causes, world, cache) => reach keyspace endpoints (.refused causes) world cache

/-- The connection to the first of the candidates that has one or accepts one. -/
def acquire (keyspace : String) (candidates : List String) (world : ω) (cache : Cache ι) :
    Except Failure ι × ω × Cache ι :=
  match reach connect keyspace candidates .noReplicas world cache with
  | (.ok connection, world, cache) => (.ok connection, world, cache)
  | (.error fault, world, cache) => (.error (.connection candidates fault), world, cache)

end Cluster

end RingScan
