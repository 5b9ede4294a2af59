import RingScan.Ring.Token

/-!
# Splits

A split is a slice of the ring: the tokens after its start up to its end.  It may wrap around the
ring, and with equal bounds it is the whole ring.

## Main definitions

* `Split`: a slice of the ring and the endpoints that hold it.
* `Split.contains`: membership of a token.
* `Split.isWrapping`: the slice crosses the smallest token.
-/

namespace RingScan

/-- A slice of the ring. -/
structure Split where
  /-- The token before the slice. -/
  start : Token
  /-- The last token of the slice. -/
  stop : Token
  /-- The endpoints that hold the rows of the slice. -/
  replicas : List String := []
  deriving DecidableEq, Repr

namespace Split

/-- A token lies in the slice. -/
def contains (split : Split) (token : Token) : Bool :=
  match split.start.compare split.stop with
  | .lt => decide (split.start < token) && decide (token ≤ split.stop)
  | .eq => true
  | .gt => decide (split.start < token) || decide (token ≤ split.stop)

/-- The slice crosses the smallest token of the ring. -/
def isWrapping (split : Split) : Bool :=
  decide (split.stop ≤ split.start)

/-- The values bound for the two bounds, the start first. -/
def bounds (split : Split) : List Value :=
  [split.start.bound, split.stop.bound]

/-- The text of a slice. -/
def text (split : Split) : String :=
  s!"({split.start.text}, {split.stop.text}]"

end Split

end RingScan
