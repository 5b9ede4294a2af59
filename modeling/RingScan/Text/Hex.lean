import RingScan.Text.Escaped
import RingScan.Text.Utf8

/-!
# Hexadecimal digits

Bytes written as two digits each, high half first.  Written digits are small letters; read digits
may have either case.  An odd number of digits is refused before any digit is looked at, and of
several characters that are no digit the first is reported, as the byte it is and by its position
among the bytes of the text.

## Main definitions

* `Text.Hex.encode`: the digits of a list of bytes.
* `Text.Hex.decode`: the bytes that the bytes of a text stand for.
-/

namespace RingScan.Text.Hex

/-- The digit of a half byte. -/
def digit (n : Nat) : Char :=
  if n < 10 then Char.ofNat ('0'.toNat + n) else Char.ofNat ('a'.toNat + (n - 10))

/-- The two digits of a byte. -/
def pair (b : UInt8) : List Char :=
  [digit (b.toNat / 16), digit (b.toNat % 16)]

/-- The digits of a list of bytes. -/
def encode (bs : Bytes) : List Char :=
  bs.flatMap pair

/-- The digits of a list of bytes, as a text. -/
def text (bs : Bytes) : String :=
  String.ofList (encode bs)

/-- The value of a digit of either case. -/
def value? (c : Char) : Option Nat :=
  if '0' ≤ c ∧ c ≤ '9' then some (c.toNat - '0'.toNat)
  else if 'a' ≤ c ∧ c ≤ 'f' then some (c.toNat - 'a'.toNat + 10)
  else if 'A' ≤ c ∧ c ≤ 'F' then some (c.toNat - 'A'.toNat + 10)
  else none

/-- The value of a digit given by its byte. -/
def byteValue? (b : UInt8) : Option Nat :=
  value? (Char.ofNat b.toNat)

/-- Why a text stands for no bytes. -/
inductive Fault where
  /-- The number of digits is odd. -/
  | oddLength
  /-- The byte at `position` is no digit. -/
  | badDigit (byte : UInt8) (position : Nat)
  deriving DecidableEq, Repr

/-- The wording of a fault. -/
def Fault.message : Fault → String
  | oddLength => "Odd number of digits"
  | badDigit byte position => s!"Invalid character {Escaped.byte byte} at position {position}"

/-- The bytes of an even number of digits, of which the first is at `position`. -/
def decodePairs (position : Nat) : Bytes → Except Fault Bytes
  | high :: low :: rest =>
    match byteValue? high, byteValue? low with
    | some h, some l => (decodePairs (position + 2) rest).map (UInt8.ofNat (16 * h + l) :: ·)
    | none, _ => .error (.badDigit high position)
    | some _, none => .error (.badDigit low (position + 1))
  | _ => .ok []

/-- The bytes that the bytes of a text stand for. -/
def decode (digits : Bytes) : Except Fault Bytes :=
  if digits.length % 2 = 0 then decodePairs 0 digits else .error .oddLength

end RingScan.Text.Hex
