/-!
# Reading documents

A document is read from the left by readers that each take what they know off the front of the
remaining characters.  The first problem met decides how the document is refused, so a value of the
wrong kind is reported even when the text is broken further right.

## Main definitions

* `Document.Fault`: the three ways in which a document is refused.
* `Document.Reader`: what takes a value off the front of the remaining characters.
* `Document.skipBlank`, `Document.word`, `Document.colon`, `Document.separator`: the marks between
  values.
* `Document.parse`: a value that takes up a whole text.
-/

namespace RingScan.Document

/-- Why a document was refused. -/
inductive Fault where
  /-- What stands there is well formed but not of the wanted kind. -/
  | shape
  /-- The text is no document. -/
  | malformed
  /-- The text ends inside a document. -/
  | truncated
  deriving DecidableEq, Repr

/-- What takes a value off the front of the remaining characters and tells what is left. -/
abbrev Reader (α : Type) := List Char → Except Fault (α × List Char)

/-- The characters that may stand between values. -/
def isBlank (c : Char) : Bool :=
  c == ' ' || c == '\n' || c == '\t' || c == '\r'

/-- The remaining characters from the first that is not blank. -/
def skipBlank (s : List Char) : List Char :=
  s.dropWhile isBlank

/-- The remaining characters after the characters of a word. -/
def word : List Char → List Char → Except Fault (List Char)
  | [], s => .ok s
  | _ :: _, [] => .error .truncated
  | w :: ws, c :: s => if c = w then word ws s else .error .malformed

/-- The remaining characters after the colon of a member. -/
def colon (s : List Char) : Except Fault (List Char) :=
  match skipBlank s with
  | [] => .error .truncated
  | ':' :: s => .ok s
  | _ => .error .malformed

/-- The start of the next item, given the first character after the item before it. -/
def separator (closing c : Char) (s : List Char) : Except Fault (List Char) :=
  if c = ',' then
    match skipBlank s with
    | [] => .error .truncated
    | d :: s => if d = closing then .error .malformed else .ok (d :: s)
  else .error .malformed

/-- The value that takes up a whole text. -/
def parse {α : Type} (reader : Reader α) (text : String) : Except Fault α := do
  let (value, rest) ← reader text.toList
  if (skipBlank rest).isEmpty then .ok value else .error .malformed

end RingScan.Document
