import RingScan.Cluster.Basic
import RingScan.Memory.Network
import RingScan.Memory.Store

/-!
# Nodes in memory

A node answers from its store.  Faults can be lined up for the executions to come, every execution
is recorded with the time at which it happened, and time passes only in pauses.  All endpoints of
the cluster in memory lead to one node.

## Main definitions

* `Memory.Node`: a node.
* `Memory.Node.session`: executes statements on the node.
* `Memory.World`: a network, a node and the description of its table.
* `Memory.cluster`: the cluster that acts on such a world.
-/

namespace RingScan.Memory

/-- An execution of a statement. -/
structure Execution where
  /-- The statement. -/
  statement : Statement
  /-- Where it went on. -/
  from? : Option Bytes
  /-- The time at which it happened. -/
  time : Nat
  deriving DecidableEq, Repr

/-- A node. -/
structure Node where
  /-- What the node answers with. -/
  store : Store
  /-- What the next executions fail with, or that they do not fail. -/
  faults : List (Option ExecutionFault) := []
  /-- All executions, the last one first. -/
  log : List Execution := []
  /-- The milliseconds that have passed. -/
  clock : Nat := 0
  deriving DecidableEq, Repr

namespace Node

/-- Lines up faults behind those that are there. -/
def inject (node : Node) (faults : List (Option ExecutionFault)) : Node :=
  { node with faults := node.faults ++ faults }

/-- All executions, in order. -/
def executions (node : Node) : List Execution :=
  node.log.reverse

/-- Executes a statement. -/
def execute (statement : Statement) (from? : Option Bytes) (node : Node) :
    Except ExecutionFault Page × Node :=
  let answer := match node.faults.head?.join with
    | some fault => .error fault
    | none => node.store.answer statement from?
  (answer, { node with
    faults := node.faults.tail, log := ⟨statement, from?, node.clock⟩ :: node.log })

/-- Lets time pass. -/
def pause (delay : Nat) (node : Node) : Node :=
  { node with clock := node.clock + delay }

/-- Executes statements on the node. -/
def session : Session Node where
  execute := execute
  pause := pause

end Node

/-- A network, a node and the description of its table. -/
structure World where
  /-- The endpoints. -/
  network : Network
  /-- The node that all endpoints lead to. -/
  node : Node
  /-- The columns of the table, or why they cannot be fetched. -/
  table : Except Causes Table

namespace World

/-- Makes a connection. -/
def connect (target : Target) (world : World) : Except Causes Nat × World :=
  let (result, network) := world.network.connect target
  (result, { world with network })

/-- Executes a statement on the node. -/
def execute (statement : Statement) (from? : Option Bytes) (world : World) :
    Except ExecutionFault Page × World :=
  let (answer, node) := world.node.execute statement from?
  (answer, { world with node })

/-- Lets time pass. -/
def pause (delay : Nat) (world : World) : World :=
  { world with node := world.node.pause delay }

end World

/-- The cluster in memory. -/
def cluster : Cluster World Nat where
  connect := World.connect
  describe _ _ world := (world.table, world)
  session _ := ⟨World.execute, World.pause⟩

end RingScan.Memory
