import RingScan.Decimal.Shortest

/-!
# Styles of decimal text

How the shortest digits of a binary number become text: where they are written out in full, what
marks a whole number, and the words for the values that are no finite number.

## Main definitions

* `Decimal.Style`: the decisions of one style.
* `Decimal.Style.write`: the text of a pattern of bits in a style.
-/

namespace RingScan.Decimal

/-- The decisions of a style. -/
structure Style where
  /-- Which of two equally near decimals is taken. -/
  tie : Tie
  /-- The powers of ten of the first digit for which the digits are written out in full; with no
  bounds they always are. -/
  positional : Option (Int × Int)
  /-- Whether a whole number that is written out in full ends in a point and a zero. -/
  marksWhole : Bool
  /-- The word for what is no number. -/
  nan : String
  /-- The word for infinity. -/
  infinity : String
  /-- The word for negative infinity. -/
  negativeInfinity : String

/-- Digits written out in full, without an exponent. -/
def Digits.positional (d : Digits) (marksWhole : Bool) : List Char :=
  match d.exponent with
  | .ofNat e =>
    let whole := d.digits.take (e + 1)
    let rest := d.digits.drop (e + 1)
    let padded := whole ++ List.replicate (e + 1 - whole.length) '0'
    if rest.isEmpty then if marksWhole then padded ++ ['.', '0'] else padded
    else padded ++ '.' :: rest
  | .negSucc e => '0' :: '.' :: (List.replicate e '0' ++ d.digits)

/-- Digits written with an exponent, whose sign is always written. -/
def Digits.scientific (d : Digits) : List Char :=
  let sign := if 0 ≤ d.exponent then '+' else '-'
  let exponent := 'e' :: sign :: Text.digits d.exponent.natAbs
  match d.digits with
  | first :: second :: rest => first :: '.' :: second :: (rest ++ exponent)
  | digits => digits ++ exponent

namespace Style

/-- The text of digits in a style. -/
def writeDigits (style : Style) (d : Digits) : List Char :=
  match style.positional with
  | none => d.positional style.marksWhole
  | some (least, most) =>
    if least ≤ d.exponent ∧ d.exponent ≤ most then d.positional style.marksWhole
    else d.scientific

/-- The text of a pattern of bits in a style. -/
def write (style : Style) (f : Format) (bits : Nat) : List Char :=
  match f.read bits with
  | .nan => style.nan.toList
  | .infinite negative => (if negative then style.negativeInfinity else style.infinity).toList
  | .finite negative m q =>
    let d := if m = 0 then ⟨['0'], 0⟩ else f.shortest style.tie m q
    let text := style.writeDigits d
    if negative then '-' :: text else text

end Style

end RingScan.Decimal
