import RingScan.Text.Hidden
import RingScan.Text.Utf8

/-!
# Text shown in messages

A message shows a name between double quotes and a single character between single quotes.  The
quote in use, the backslash and every character that would not show as itself are replaced by
escapes, so that the name can be told from the text around it.

## Main definitions

* `Text.Escaped.text`: a text between double quotes.
* `Text.Escaped.byte`: a byte, as the character of its number, between single quotes.
* `Text.Escaped.list`: several texts between brackets.
-/

namespace RingScan.Text.Escaped

/-- The hexadecimal digits of a number, without leading zeros. -/
def code (n : Nat) : List Char :=
  Nat.toDigits 16 n

/-- A character as it is shown between the quote characters `quote`. -/
def char (quote c : Char) : List Char :=
  if c = '\x00' then ['\\', '0']
  else if c = '\t' then ['\\', 't']
  else if c = '\r' then ['\\', 'r']
  else if c = '\n' then ['\\', 'n']
  else if c = '\\' ∨ c = quote then ['\\', c]
  else if isHidden c then ['\\', 'u', '\x7b'] ++ code c.toNat ++ ['\x7d']
  else [c]

/-- A text between double quotes. -/
def text (s : String) : String :=
  String.ofList ('"' :: (s.toList.flatMap (char '"') ++ ['"']))

/-- A byte, as the character of its number, between single quotes. -/
def byte (b : UInt8) : String :=
  String.ofList ('\'' :: (char '\'' (Char.ofNat b.toNat) ++ ['\'']))

/-- Several texts between brackets. -/
def list (names : List String) : String :=
  "[" ++ ", ".intercalate (names.map text) ++ "]"

end RingScan.Text.Escaped
