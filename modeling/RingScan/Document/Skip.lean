import RingScan.Document.Text

/-!
# Passing over values

A member that nobody asked for is passed over, whatever it holds and however deeply it is nested.
Passing over is more lenient than reading: numbers of any size and code units without their partner
are accepted.  It is also stricter in one point, for a number that breaks off is malformed.

## Main definitions

* `Document.skip`: passes over the value at the front of the remaining characters.
* `Document.unread`: the same, keeping the characters of the value.
-/

namespace RingScan.Document

/-- Passes over a text after its opening quote. -/
def skipText : List Char → Except Fault (List Char)
  | [] => .error .truncated
  | '"' :: s => .ok s
  | ['\\'] => .error .truncated
  | '\\' :: c :: s =>
    if c = 'u' then
      match codeUnit s with
      | .error fault => .error fault
      | .ok _ => skipText s
    else if (letterEscape? c).isSome then skipText s
    else .error .malformed
  | c :: s => if c.toNat < 0x20 then .error .malformed else skipText s

/-- Passes over the exponent of a number. -/
def skipExponent (s : List Char) : Except Fault (List Char) :=
  let s := if s.head? == some '-' || s.head? == some '+' then s.drop 1 else s
  if s.head?.any Char.isDigit then .ok (s.dropWhile Char.isDigit) else .error .malformed

/-- Passes over what may follow the whole part of a number. -/
def skipTail : List Char → Except Fault (List Char)
  | '.' :: s =>
    if s.head?.any Char.isDigit then
      match s.dropWhile Char.isDigit with
      | 'e' :: s => skipExponent s
      | 'E' :: s => skipExponent s
      | s => .ok s
    else .error .malformed
  | 'e' :: s => skipExponent s
  | 'E' :: s => skipExponent s
  | s => .ok s

/-- Passes over a number after its sign. -/
def skipUnsigned : List Char → Except Fault (List Char)
  | '0' :: s => if s.head?.any Char.isDigit then .error .malformed else skipTail s
  | c :: s => if c.isDigit then skipTail (s.dropWhile Char.isDigit) else .error .malformed
  | [] => .error .malformed

/-- Passes over the scalar at the front of the remaining characters. -/
def skipScalar : List Char → Except Fault (List Char)
  | 'n' :: s => word ['u', 'l', 'l'] s
  | 't' :: s => word ['r', 'u', 'e'] s
  | 'f' :: s => word ['a', 'l', 's', 'e'] s
  | '"' :: s => skipText s
  | '-' :: s => skipUnsigned s
  | c :: s => if c.isDigit then skipUnsigned (c :: s) else .error .malformed
  | [] => .error .truncated

/-- Passes over the name of a member and its colon. -/
def skipName (s : List Char) : Except Fault (List Char) :=
  match skipBlank s with
  | [] => .error .truncated
  | '"' :: s => do colon (← skipText s)
  | _ => .error .malformed

/-- What is expected next on the way through nested values. -/
inductive Expected where
  /-- A value. -/
  | value
  /-- The end of a collection or a further item of it. -/
  | further

/-- The way through nested values: what is expected next, the closing brackets of the collections
around it, innermost first, and the remaining characters. -/
structure Passage where
  /-- What is expected next. -/
  expected : Expected
  /-- The closing brackets of the collections around it. -/
  closings : List Char
  /-- The remaining characters. -/
  rest : List Char

/-- To the next value of a collection: the names of an object's members are passed over. -/
def passTo (closing : Char) (closings s : List Char) : Except Fault Passage :=
  if closing = '}' then (skipName s).map (⟨.value, closing :: closings, ·⟩)
  else .ok ⟨.value, closing :: closings, s⟩

/-- Into a collection, after its opening bracket: to its first value or, where it has none, past its
end. -/
def passInto (closing : Char) (closings s : List Char) : Except Fault Passage :=
  match skipBlank s with
  | [] => .error .truncated
  | c :: s => if c = closing then .ok ⟨.further, closings, s⟩ else passTo closing closings (c :: s)

/-- On from an item of a collection: to the next value or past the end. -/
def passOn (closing : Char) (closings s : List Char) : Except Fault Passage :=
  match skipBlank s with
  | [] => .error .truncated
  | c :: s =>
    if c = closing then .ok ⟨.further, closings, s⟩
    else if c = ',' then passTo closing closings s
    else .error .malformed

/-- Past a scalar or into a collection. -/
def passValue (closings s : List Char) : Except Fault Passage :=
  match skipBlank s with
  | [] => .error .truncated
  | '[' :: s => passInto ']' closings s
  | '{' :: s => passInto '}' closings s
  | s => (skipScalar s).map (⟨.further, closings, ·⟩)

/-- Passes over values until all collections are closed.  Each step takes at least one character,
so `fuel` of the length of the remaining characters outlasts them. -/
def passThrough : List Char → Passage → Except Fault (List Char)
  | _, ⟨.further, [], s⟩ => .ok s
  | [], _ => .error .truncated
  | _ :: fuel, ⟨.further, closing :: closings, s⟩ => do
    passThrough fuel (← passOn closing closings s)
  | _ :: fuel, ⟨.value, closings, s⟩ => do
    passThrough fuel (← passValue closings s)

/-- Passes over the value at the front of the remaining characters. -/
def skip (s : List Char) : Except Fault (List Char) :=
  passThrough s ⟨.value, [], s⟩

/-- The characters of the value at the front of the remaining characters. -/
def unread : Reader (List Char) := fun s => do
  let start := skipBlank s
  let rest ← skip start
  .ok (start.take (start.length - rest.length), rest)

end RingScan.Document
