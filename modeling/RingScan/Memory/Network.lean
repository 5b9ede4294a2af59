import RingScan.Cluster.Cache

/-!
# Networks in memory

A network that numbers the connections made over it and refuses those to endpoints that are down.

## Main definitions

* `Memory.Network`: which endpoints are down, and what has been connected.
* `Memory.Network.connect`: makes a connection.
-/

namespace RingScan.Memory

/-- The endpoints and the connections made to them. -/
structure Network where
  /-- The endpoints that are down, and why. -/
  down : List (String × Causes) := []
  /-- The endpoints of all attempts to connect, the last one first. -/
  attempts : List String := []
  /-- The number of connections that were made. -/
  opened : Nat := 0
  deriving DecidableEq, Repr

namespace Network

/-- Makes a connection; it is known by the number of connections made before. -/
def connect (target : Target) (network : Network) : Except Causes Nat × Network :=
  let network := { network with attempts := target.endpoint :: network.attempts }
  match network.down.lookup target.endpoint with
  | some causes => (.error causes, network)
  | none => (.ok network.opened, { network with opened := network.opened + 1 })

/-- The endpoints of all attempts to connect, in order. -/
def connects (network : Network) : List String :=
  network.attempts.reverse

end Network

end RingScan.Memory
