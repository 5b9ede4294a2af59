import RingScan.Text.Blank
import RingScan.Text.Hex

/-!
# Unique identifiers

Sixteen bytes, written as 32 hexadecimal digits in five groups with hyphens between them.  A text
may have its hyphens anywhere, or none, and blanks around it.

## Main definitions

* `Uuid.read`: the bytes that a text stands for.
* `Uuid.write`: the text of sixteen bytes.
-/

namespace RingScan.Uuid

/-- Why a text is no identifier. -/
inductive Fault where
  /-- What is left without hyphens is no list of bytes. -/
  | digits (fault : Text.Hex.Fault)
  /-- There are more or less than sixteen bytes. -/
  | size
  deriving DecidableEq, Repr

/-- The wording of a fault. -/
def Fault.message : Fault → String
  | digits fault => fault.message
  | size => "expected 16 bytes"

/-- The bytes that a text stands for. -/
def read (s : String) : Except Fault Bytes :=
  match Text.Hex.decode (Text.Utf8.encode ((Text.trimChars s.toList).filter (· != '-'))) with
  | .error fault => .error (.digits fault)
  | .ok bytes => if bytes.length = 16 then .ok bytes else .error .size

/-- The text of sixteen bytes. -/
def write (bytes : Bytes) : List Char :=
  let digits := Text.Hex.encode bytes
  digits.take 8 ++ '-' :: ((digits.drop 8).take 4 ++ '-' :: ((digits.drop 12).take 4 ++
    '-' :: ((digits.drop 16).take 4 ++ '-' :: digits.drop 20)))

end RingScan.Uuid
