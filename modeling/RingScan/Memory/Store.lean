import RingScan.Cell.BigEndian
import RingScan.Cluster.Session
import RingScan.Row.Place

/-!
# Stores in memory

What a node in memory answers with: pages that are fixed beforehand, or the rows of a table, which
are kept in the order of their tokens and chosen by the values of the statement.  A page ends with
the position of what follows it.

## Main definitions

* `Memory.Stored`: a row with its key and token.
* `Memory.Store`: pages or rows.
* `Memory.Store.ofRows`: the rows of a table in the order of their tokens.
* `Memory.Store.answer`: the page that a store answers with.

## Main statements

* `Memory.readPosition_writePosition`: a position is read back.
-/

namespace RingScan

/-- The position on the ring that a bound value stands for. -/
def Token.ofBound? : Value → Option Token
  | .bigInt n => some (.long n)
  | .blob key => some (.bytes key)
  | _ => none

namespace Memory

/-- The bytes of a position: eight, or more if eight do not hold it. -/
def writePosition (n : Nat) : Bytes :=
  Cell.bigEndian (max 8 (n.log2 / 8 + 1)) n

/-- The position at which a page begins. -/
def readPosition : Option Bytes → Nat
  | none => 0
  | some bytes => Cell.ofBigEndian bytes

theorem readPosition_writePosition (n : Nat) : readPosition (some (writePosition n)) = n := by
  have hwidth : n.log2 + 1 ≤ 8 * max 8 (n.log2 / 8 + 1) := by omega
  have hbytes : Nat.pow 2 (8 * max 8 (n.log2 / 8 + 1)) = Nat.pow 256 (max 8 (n.log2 / 8 + 1)) :=
    Nat.pow_mul 2 8 _
  refine Cell.ofBigEndian_bigEndian (hbytes ▸ ?_)
  exact Nat.lt_of_lt_of_le Nat.lt_log2_self (Nat.pow_le_pow_right Nat.zero_lt_two hwidth)

/-- A row with its place on the ring. -/
structure Stored where
  /-- The token of the key. -/
  token : Token
  /-- The partition key. -/
  key : Bytes
  /-- The cells. -/
  cells : Cells
  deriving DecidableEq, Repr

/-- What a node answers with. -/
inductive Store where
  /-- Pages that are fixed beforehand. -/
  | fixed (pages : List (List Cells))
  /-- The rows of a table in the order of their tokens, and the types of its partition key. -/
  | table (shape : KeyShape) (rows : List Stored)
  deriving DecidableEq, Repr

namespace Store

/-- A row of a table with its place on the ring. -/
def place (keys : KeyLayout) (partitioner : Partitioner) (cells : Cells) :
    Except EncodingFault Stored := do
  let key ← keys.keyOf cells
  .ok ⟨partitioner.tokenOf key, key, cells⟩

/-- The rows of a table in the order of their tokens. -/
def ofRows (keys : KeyLayout) (partitioner : Partitioner) (rows : List Cells) :
    Except EncodingFault Store := do
  let placed ← rows.mapM (place keys partitioner)
  .ok (.table keys.shape (placed.mergeSort fun a b => (a.token.compare b.token).isLE))

/-- The keys that a statement looks up. -/
def wanted (shape : KeyShape) (equals : Value) (items : List Value) :
    Except ExecutionFault (List Bytes) :=
  (items.mapM fun item => shape.encode [equals, item]).mapError fun fault =>
    .other ⟨(Failure.encoding fault).message, []⟩

/-- The rows that a statement chooses by its values: those with one of the keys that it looks up, or
those between its bounds. -/
def chosen (shape : KeyShape) (rows : List Stored) : List Value → Except ExecutionFault (List Cells)
  | [equals, .list items] => do
    let keys ← wanted shape equals items
    .ok ((rows.filter fun row => keys.contains row.key).map (·.cells))
  | [start, stop] =>
    match Token.ofBound? start, Token.ofBound? stop with
    | some start, some stop =>
      let split : Split := { start, stop }
      .ok ((rows.filter fun row => split.contains row.token).map (·.cells))
    | _, _ => .error (.other ⟨"unexpected token bind value", []⟩)
  | _ => .error (.other ⟨"unexpected token bind value", []⟩)

/-- The rows from a position on, as many as a page holds. -/
def slice (rows : List Cells) (position size : Nat) : Page where
  rows := (rows.drop position).take size
  continuation :=
    if position + size < rows.length then some (writePosition (position + size)) else none

/-- The page at a position in a list of pages. -/
def pageAt (pages : List (List Cells)) (position : Nat) : Page where
  rows := (pages[position]?).getD []
  continuation :=
    if position + 1 < pages.length then some (writePosition (position + 1)) else none

/-- The page that a store answers with. -/
def answer (store : Store) (statement : Statement) (from? : Option Bytes) :
    Except ExecutionFault Page :=
  match store with
  | fixed pages => .ok (pageAt pages (readPosition from?))
  | table shape rows => do
    let chosen ← chosen shape rows statement.values
    .ok (slice chosen (readPosition from?) (max 1 statement.pageSize.toNat))

/-- The number of rows that the store holds. -/
def rowCount : Store → Nat
  | fixed pages => pages.foldr (fun page n => page.length + n) 0
  | table _ rows => rows.length

/-- The number of pages that the store can answer with at most, one after the other. -/
def pageLimit : Store → Nat
  | fixed pages => pages.length + 1
  | table _ rows => rows.length + 1

end Store

end Memory

end RingScan
