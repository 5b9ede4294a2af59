import RingScan.Document.Number
import RingScan.Document.Skip

/-!
# Typed values of a document

Readers for values of a wanted kind.  Where the value is of another kind, the fault is `shape`, but
only after a scalar of the other kind has been read to its end: a broken scalar is reported as
broken.

A record is an object, whose members may come in any order and of which unknown ones are passed
over, or a list of its members in their order.

## Main definitions

* `Document.text`, `Document.boolean`, `Document.integer`, `Document.signed`, `Document.natural`,
  `Document.double`, `Document.single`, `Document.optional`: readers of scalars.
* `Document.sequence`, `Document.members`, `Document.mapping`: readers of collections.
* `Document.tagged`, `Document.choice`: readers of one of several cases.
* `Document.Member`, `Document.record`: readers of records.
-/

namespace RingScan.Document

/-- The fault of a value of another kind than the wanted one, at the front of the remaining
characters. -/
def mismatch (s : List Char) : Fault :=
  let ended {α : Type} (r : Except Fault α) : Fault :=
    match r with
    | .error fault => fault
    | .ok _ => .shape
  match s with
  | 'n' :: s => ended (word ['u', 'l', 'l'] s)
  | 't' :: s => ended (word ['r', 'u', 'e'] s)
  | 'f' :: s => ended (word ['a', 'l', 's', 'e'] s)
  | '"' :: s => ended (textFrom s)
  | '[' :: _ => .shape
  | '{' :: _ => .shape
  | c :: s => if c = '-' ∨ c.isDigit then ended (number (c :: s)) else .malformed
  | [] => .truncated

/-! ### Scalars -/

/-- A text. -/
def text : Reader String := fun s =>
  match skipBlank s with
  | '"' :: s => (textFrom s).map (fun p => (String.ofList p.1, p.2))
  | s => .error (mismatch s)

/-- A truth value. -/
def boolean : Reader Bool := fun s =>
  match skipBlank s with
  | 't' :: s => (word ['r', 'u', 'e'] s).map (fun s => (true, s))
  | 'f' :: s => (word ['a', 'l', 's', 'e'] s).map (fun s => (false, s))
  | s => .error (mismatch s)

/-- A number that `accept` has a value for. -/
def numeric {α : Type} (accept : Number → Option α) : Reader α := fun s =>
  match skipBlank s with
  | [] => .error .truncated
  | c :: s =>
    if c = '-' ∨ c.isDigit then do
      let (n, s) ← number (c :: s)
      match accept n with
      | some x => .ok (x, s)
      | none => .error .shape
    else .error (mismatch (c :: s))

/-- A whole number from `-below` to `above`. -/
def integer (below above : Nat) : Reader Int :=
  numeric fun
    | .whole n => if n ≤ above then some n else none
    | .negative n => if n ≤ below then some (-n) else none
    | .real _ => none

/-- A whole number that fits the given number of bytes, one bit of which is the sign. -/
def signed (width : Nat) : Reader Int :=
  integer (Nat.pow 2 (8 * width - 1)) (Nat.pow 2 (8 * width - 1) - 1)

/-- A whole number from zero to `above`. -/
def natural (above : Nat) : Reader Nat :=
  numeric fun
    | .whole n => if n ≤ above then some n else none
    | _ => none

/-- A 64-bit real; whole numbers are rounded. -/
def double : Reader Double :=
  numeric fun
    | .whole n => some (Double.ofNat n)
    | .negative n => some (Double.ofNat n).neg
    | .real x => some x

/-- A 32-bit real, rounded from a whole number or from a 64-bit real. -/
def single : Reader Single :=
  numeric fun
    | .whole n => some (Single.ofQuotient false n 1)
    | .negative n => some (Single.ofQuotient true n 1)
    | .real x => some x.narrow

/-- The word for nothing. -/
def null : Reader Unit := fun s =>
  match skipBlank s with
  | 'n' :: s => (word ['u', 'l', 'l'] s).map (fun s => ((), s))
  | s => .error (mismatch s)

/-- A value or the word for nothing. -/
def optional {α : Type} (value : Reader α) : Reader (Option α) := fun s =>
  match skipBlank s with
  | 'n' :: s => (word ['u', 'l', 'l'] s).map (fun s => (none, s))
  | s => (value s).map (fun p => (some p.1, p.2))

/-! ### Collections -/

/-- The items up to a closing bracket.  Each item takes at least one character, so `fuel` of the
length of the remaining characters outlasts them. -/
def items {α : Type} (item : Reader α) : List Char → Bool → Reader (List α)
  | [], _, _ => .error .truncated
  | _ :: fuel, first, s =>
    match skipBlank s with
    | [] => .error .truncated
    | ']' :: s => .ok ([], s)
    | c :: s => do
      let s ← if first then .ok (c :: s) else separator ']' c s
      let (x, s) ← item s
      let (xs, s) ← items item fuel false s
      .ok (x :: xs, s)

/-- A list of values. -/
def sequence {α : Type} (item : Reader α) : Reader (List α) := fun s =>
  match skipBlank s with
  | '[' :: s => items item s true s
  | s => .error (mismatch s)

/-- The members up to a closing brace.  From what has been read and the name of a member, `member`
tells how its value is read.  Each member takes at least one character, so `fuel` of the length of
the remaining characters outlasts them. -/
def membersFrom {δ : Type} (member : δ → String → Except Fault (Reader δ)) :
    List Char → Bool → δ → Reader δ
  | [], _, _, _ => .error .truncated
  | _ :: fuel, first, d, s =>
    match skipBlank s with
    | [] => .error .truncated
    | '}' :: s => .ok (d, s)
    | c :: s => do
      let s ← if first then .ok (c :: s) else separator '}' c s
      match s with
      | '"' :: s =>
        let (name, s) ← textFrom s
        let value ← member d (String.ofList name)
        let (d, s) ← value (← colon s)
        membersFrom member fuel false d s
      | _ => .error .malformed

/-- The members of an object. -/
def members {δ : Type} (member : δ → String → Except Fault (Reader δ)) (d : δ) : Reader δ :=
  fun s =>
    match skipBlank s with
    | '{' :: s => membersFrom member s true d s
    | s => .error (mismatch s)

/-- The names and values of an object, each value as `value` reads it. -/
def mapping {α : Type} (value : Reader α) : Reader (List (String × α)) := fun s =>
  (members (fun d name => .ok fun s => (value s).map (fun p => ((name, p.1) :: d, p.2))) [] s).map
    (fun p => (p.1.reverse, p.2))

/-! ### Cases -/

/-- One of several cases: a case that holds a value is an object whose one member has the name of
the case, a case that holds none may also be its name alone.  No case is nested more deeply than
the wanted depth, which `isTooDeep` tells. -/
def tagged {α : Type} (isTooDeep : Bool) (bare : String → Option α)
    (holding : String → Option (Reader α)) : Reader α := fun s =>
  match skipBlank s with
  | [] => .error .truncated
  | '{' :: s =>
    if isTooDeep then .error .malformed
    else do
      let (tag, s) ← text s
      match holding tag with
      | none => .error .shape
      | some value =>
        let (x, s) ← value (← colon s)
        match skipBlank s with
        | [] => .error .truncated
        | '}' :: s => .ok (x, s)
        | _ => .error .malformed
  | '"' :: s => do
    let (tag, s) ← textFrom s
    match bare (String.ofList tag) with
    | some x => .ok (x, s)
    | none => .error .shape
  | _ => .error .malformed

/-- One of several cases that hold no value. -/
def choice {α : Type} (case : String → Option α) : Reader α :=
  tagged false case fun tag =>
    (case tag).map fun x s => (null s).map (fun p => (x, p.2))

/-! ### Records -/

/-- A member of a record whose readers fill in `δ`. -/
structure Member (δ : Type) where
  /-- The name of the member. -/
  name : String
  /-- Whether the member has been read. -/
  isFilled : δ → Bool
  /-- Reads the member. -/
  read : δ → Reader δ

/-- The field of a member that `get` and `set` keep. -/
def Member.slot {α δ : Type} (name : String) (get : δ → Option α) (set : δ → α → δ)
    (value : Reader α) : Member δ where
  name := name
  isFilled d := (get d).isSome
  read d s := (value s).map (fun p => (set d p.1, p.2))

/-- How the value of a member is read: one that has been read before is refused, an unknown one is
passed over. -/
def fieldMember {δ : Type} (fields : List (Member δ)) (d : δ) (name : String) :
    Except Fault (Reader δ) :=
  match fields.find? (·.name == name) with
  | some field => if field.isFilled d then .error .shape else .ok (field.read d)
  | none => .ok fun s => (skip s).map (fun s => (d, s))

/-- The members of a record in their order, up to a closing bracket. -/
def positionsFrom {δ : Type} : List (Member δ) → Bool → δ → Reader δ
  | [], _, d, s =>
    match skipBlank s with
    | [] => .error .truncated
    | ']' :: s => .ok (d, s)
    | _ => .error .malformed
  | field :: fields, first, d, s =>
    match skipBlank s with
    | [] => .error .truncated
    | ']' :: s => .ok (d, s)
    | c :: s => do
      let s ← if first then .ok (c :: s) else separator ']' c s
      let (d, s) ← field.read d s
      positionsFrom fields false d s

/-- A record with the given fields; `finish` tells whether all that it needs has been read. -/
def record {α δ : Type} (fields : List (Member δ)) (start : δ) (finish : δ → Option α) :
    Reader α := fun s => do
  let (d, s) ← match skipBlank s with
    | '{' :: s => membersFrom (fieldMember fields) s true start s
    | '[' :: s => positionsFrom fields true start s
    | s => .error (mismatch s)
  match finish d with
  | some x => .ok (x, s)
  | none => .error .shape

end RingScan.Document
