import RingScan.Text.Hex
import RingScan.Text.Integer
import RingScan.Value.Basic

/-!
# Tokens

A token is a position on the ring of partition keys: a signed 64-bit number where keys are hashed,
the key itself where they are kept in the order of their bytes.  Numbers come before bytes; a ring
has tokens of one sort only, so the two are never mixed in a sound configuration.

## Main definitions

* `Token`: a position on the ring.
* `Token.compare`: the order of positions.
* `Token.text`: the text of a position.
* `Token.bound`: the value that a statement binds for a position.
-/

namespace RingScan

/-- A position on the ring. -/
inductive Token where
  /-- The hash of a key. -/
  | long (n : Int64)
  /-- The bytes of a key. -/
  | bytes (key : Bytes)
  deriving DecidableEq, Repr

namespace Token

/-- The order of two positions: numbers by size, bytes as words in a dictionary. -/
def compare : Token → Token → Ordering
  | long m, long n => Ord.compare m n
  | bytes a, bytes b => Ord.compare a b
  | long _, bytes _ => .lt
  | bytes _, long _ => .gt

instance : Ord Token := ⟨compare⟩

instance : LT Token := ltOfOrd

instance : LE Token := leOfOrd

/-- The text of a position: a decimal number, or the digits of the bytes. -/
def text : Token → String
  | long n => String.ofList (Text.integer n.toInt)
  | bytes key => Text.Hex.text key

/-- The value that a statement binds for a position. -/
def bound : Token → Value
  | long n => .bigInt n
  | bytes key => .blob key

end Token

end RingScan
