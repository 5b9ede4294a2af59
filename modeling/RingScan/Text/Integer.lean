/-!
# Decimal integers

The text of an integer and the integers that a text can stand for.  A reader gives a bound for the
magnitude and works from the left, so the first character that breaks the number decides how it is
refused: a character that is no digit before the size of the number, and the size before anything
further right.

## Main definitions

* `Text.digits`, `Text.integer`: the digits of a natural number and the text of an integer.
* `Text.IntegerFault`: why a text is no integer of the wanted range.
* `Text.readInteger`, `Text.readNatural`: the integer of a range that a text stands for.
-/

namespace RingScan.Text

/-- The character of a decimal digit. -/
def digitChar (d : Nat) : Char :=
  Char.ofNat ('0'.toNat + d)

/-- The value of a decimal digit. -/
def digitValue? (c : Char) : Option Nat :=
  if '0' ≤ c ∧ c ≤ '9' then some (c.toNat - '0'.toNat) else none

/-- The decimal digits of a natural number, without leading zeros. -/
def digits (n : Nat) : List Char :=
  if n < 10 then [digitChar n] else digits (n / 10) ++ [digitChar (n % 10)]

/-- The decimal text of an integer; only a negative one has a sign. -/
def integer : Int → List Char
  | .ofNat n => digits n
  | .negSucc n => '-' :: digits (n + 1)

/-- Why a text is no integer of the wanted range. -/
inductive IntegerFault where
  /-- There is no character. -/
  | empty
  /-- A character stands where only a digit may, or a sign stands alone. -/
  | badDigit
  /-- The number is above the range. -/
  | tooLarge
  /-- The number is below the range. -/
  | tooSmall
  deriving DecidableEq, Repr

namespace IntegerFault

/-- The wording of a fault. -/
def message : IntegerFault → String
  | empty => "cannot parse integer from empty string"
  | badDigit => "invalid digit found in string"
  | tooLarge => "number too large to fit in target type"
  | tooSmall => "number too small to fit in target type"

end IntegerFault

/-- The magnitude written by the digits `cs` after digits of value `n`; `fault` is reported at the
first digit that takes it above `bound`. -/
def magnitude (bound : Nat) (fault : IntegerFault) (n : Nat) : List Char → Except IntegerFault Nat
  | [] => .ok n
  | c :: cs =>
    match digitValue? c with
    | none => .error .badDigit
    | some d =>
      if n * 10 + d ≤ bound then magnitude bound fault (n * 10 + d) cs else .error fault

/-- The magnitude of a number of at least one digit. -/
def someMagnitude (bound : Nat) (fault : IntegerFault) : List Char → Except IntegerFault Nat
  | [] => .error .badDigit
  | cs => magnitude bound fault 0 cs

/-- The integer from `-below` to `above` that a text stands for: digits after at most one sign. -/
def readInteger (below above : Nat) : List Char → Except IntegerFault Int
  | [] => .error .empty
  | '+' :: cs => (someMagnitude above .tooLarge cs).map Int.ofNat
  | '-' :: cs => (someMagnitude below .tooSmall cs).map (fun n => -(Int.ofNat n))
  | cs => (magnitude above .tooLarge 0 cs).map Int.ofNat

/-- The natural number up to `above` that a text stands for: digits after at most one plus sign. -/
def readNatural (above : Nat) : List Char → Except IntegerFault Nat
  | [] => .error .empty
  | '+' :: cs => someMagnitude above .tooLarge cs
  | cs => magnitude above .tooLarge 0 cs

end RingScan.Text
