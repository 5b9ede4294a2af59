import RingScan.Cluster.Cache

/-!
# Checkouts

A checkout gets the connection to a target.  It looks the target up, connects if there is no
connection yet, and offers the new connection to the cache.  Between two of these steps other
checkouts may take steps of their own, so a connection may turn out to have been made in vain.

## Main definitions

* `Checkout`: how far a checkout has come.
* `Checkout.step`: the next step of a checkout.
* `Checkout.run`: a checkout without other checkouts between its steps.
* `Desk`: several checkouts at once.
* `Desk.follow`: checkouts that take their steps in a given order.

## Main statements

* `Checkout.step_step_step`: a checkout is over after three steps.
-/

namespace RingScan

/-- How far a checkout has come. -/
inductive Checkout (ι : Type) where
  /-- The target has not been looked up. -/
  | waiting
  /-- The target had no connection when it was looked up. -/
  | connecting
  /-- A connection has been made and not yet been offered. -/
  | holding (connection : ι)
  /-- The checkout is over. -/
  | done (result : Except Causes ι)

variable {ω ι : Type} (connect : Target → ω → Except Causes ι × ω)

namespace Checkout

/-- The next step of a checkout, if it is not over. -/
def step (target : Target) (world : ω) (cache : Cache ι) :
    Checkout ι → Checkout ι × ω × Cache ι
  | .waiting =>
    match cache.find? target with
    | some connection => (.done (.ok connection), world, cache)
    | none => (.connecting, world, cache)
  | .connecting =>
    match connect target world with
    | (.ok connection, world) => (.holding connection, world, cache)
    | (.error causes, world) => (.done (.error causes), world, cache)
  | .holding connection =>
    match cache.keep target connection with
    | (kept, cache) => (.done (.ok kept), world, cache)
  | .done result => (.done result, world, cache)

/-- A checkout without other checkouts between its steps. -/
def run (target : Target) (world : ω) (cache : Cache ι) : Except Causes ι × ω × Cache ι :=
  match cache.find? target with
  | some connection => (.ok connection, world, cache)
  | none =>
    match connect target world with
    | (.ok connection, world) =>
      match cache.keep target connection with
      | (kept, cache) => (.ok kept, world, cache)
    | (.error causes, world) => (.error causes, world, cache)

/-- The next step from a state of a checkout, the world and the cache. -/
def stepFrom (target : Target) (state : Checkout ι × ω × Cache ι) : Checkout ι × ω × Cache ι :=
  state.1.step connect target state.2.1 state.2.2

theorem step_step_step (target : Target) (world : ω) (cache : Cache ι) :
    stepFrom connect target (stepFrom connect target
        (stepFrom connect target (.waiting, world, cache))) =
      (.done (run connect target world cache).1, (run connect target world cache).2) := by
  simp only [stepFrom, step, run]
  cases cache.find? target with
  | some connection => rfl
  | none =>
    rcases connect target world with ⟨connection | causes, world⟩ <;> rfl

end Checkout

/-- Several checkouts at once. -/
structure Desk (ω ι : Type) where
  /-- The world in which connections are made. -/
  world : ω
  /-- The connections that are kept. -/
  cache : Cache ι
  /-- The checkouts and their targets. -/
  checkouts : List (Target × Checkout ι)

namespace Desk

/-- The checkout at a position takes its next step. -/
def advance (desk : Desk ω ι) (i : Nat) : Desk ω ι :=
  match desk.checkouts[i]? with
  | none => desk
  | some (target, checkout) =>
    match checkout.step connect target desk.world desk.cache with
    | (checkout, world, cache) => ⟨world, cache, desk.checkouts.set i (target, checkout)⟩

/-- The checkouts at the positions of a list take their next steps, one after the other. -/
def follow (desk : Desk ω ι) (positions : List Nat) : Desk ω ι :=
  positions.foldl (advance connect) desk

end Desk

end RingScan
