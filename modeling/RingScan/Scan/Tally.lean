/-!
# Tallies

Two counts of what happens while splits are read: one is shared by all readers, one is kept for each
scan.

## Main definitions

* `Tally`: the shared counters, which start again from zero after the largest number they hold.
* `Stats`: the counters of one scan.
-/

namespace RingScan

/-- The counters that all readers share. -/
structure Tally where
  /-- Scans that were begun. -/
  scans : UInt64 := 0
  /-- Executions, those that failed included. -/
  executions : UInt64 := 0
  /-- Executions after which another attempt was made. -/
  retries : UInt64 := 0
  /-- Pages that were received. -/
  pages : UInt64 := 0
  /-- Rows that were handed out. -/
  rows : UInt64 := 0
  /-- Bytes of the rows that were handed out. -/
  bytes : UInt64 := 0
  /-- Scans for which no candidate lay in the split. -/
  emptyLookups : UInt64 := 0
  /-- Readers that failed. -/
  failures : UInt64 := 0
  deriving DecidableEq, Repr

namespace Tally

/-- One more scan. -/
def addScan (t : Tally) : Tally := { t with scans := t.scans + 1 }

/-- One more execution. -/
def addExecution (t : Tally) : Tally := { t with executions := t.executions + 1 }

/-- One more retry. -/
def addRetry (t : Tally) : Tally := { t with retries := t.retries + 1 }

/-- One more page. -/
def addPage (t : Tally) : Tally := { t with pages := t.pages + 1 }

/-- One more row, of the given number of bytes. -/
def addRow (t : Tally) (bytes : Nat) : Tally :=
  { t with rows := t.rows + 1, bytes := t.bytes + UInt64.ofNat bytes }

/-- One more scan with nothing to look up. -/
def addEmptyLookup (t : Tally) : Tally := { t with emptyLookups := t.emptyLookups + 1 }

/-- One more failure. -/
def addFailure (t : Tally) : Tally := { t with failures := t.failures + 1 }

end Tally

/-- The counters of one scan.  They are natural numbers, though those of `Tally` are words: they
start at zero with the scan, and each execution, retry, page and row adds one to its own counter.
Words of 64 bits would therefore hold the same numbers in every run of fewer than `2 ^ 64` of these
steps, which is more than any scan takes. -/
structure Stats where
  /-- Executions, those that failed included. -/
  executions : Nat := 0
  /-- Executions after which another attempt was made. -/
  retries : Nat := 0
  /-- Pages that were received. -/
  pages : Nat := 0
  /-- Rows that were handed out. -/
  rows : Nat := 0
  deriving DecidableEq, Repr

namespace Stats

/-- One more execution. -/
def addExecution (s : Stats) : Stats := { s with executions := s.executions + 1 }

/-- One more retry. -/
def addRetry (s : Stats) : Stats := { s with retries := s.retries + 1 }

/-- One more page. -/
def addPage (s : Stats) : Stats := { s with pages := s.pages + 1 }

/-- One more row. -/
def addRow (s : Stats) : Stats := { s with rows := s.rows + 1 }

end Stats

end RingScan
