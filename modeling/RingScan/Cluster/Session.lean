import RingScan.Query.Statement
import RingScan.Row.Cells

/-!
# Sessions

A session executes statements and answers with one page of rows at a time.  What an execution
changes outside the reader, the answers that follow included, is kept in a world, whose type is up
to the session.

## Main definitions

* `Page`: rows and where to go on.
* `Session`: what executes statements.
-/

namespace RingScan

/-- The rows of one execution. -/
structure Page where
  /-- The rows. -/
  rows : List Cells := []
  /-- Where the next execution goes on, if there are more rows. -/
  continuation : Option Bytes := none
  deriving DecidableEq, Repr

/-- What executes statements in a world. -/
structure Session (σ : Type) where
  /-- Executes a statement from its beginning or from where an earlier page ended. -/
  execute : Statement → Option Bytes → σ → Except ExecutionFault Page × σ
  /-- Lets the given number of milliseconds pass. -/
  pause : Nat → σ → σ

end RingScan
