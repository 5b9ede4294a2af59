import RingScan.Decimal.Format
import RingScan.Text.Integer

/-!
# Shortest decimal digits

The fewest decimal digits that are read back as the same binary number, and of those the nearest to
it.  A grid of decimals with one, two, three … digits is tried in turn.  Of a grid only the two
neighbours of the number can be the nearest, so those two are tested; the first grid with one of
them among the decimals that round to the number decides.

## Main definitions

* `Decimal.Tie`: which of two equally near decimals is taken.
* `Decimal.Digits`: decimal digits and the power of ten of the first.
* `Decimal.Format.shortest`: the shortest digits of a positive number.
-/

namespace RingScan.Decimal

/-- Which of two equally near decimals is taken. -/
inductive Tie where
  /-- The one whose last digit is even. -/
  | toEven
  /-- The larger one. -/
  | up
  deriving DecidableEq

/-- Decimal digits `d₁d₂d₃…`, standing for `d₁.d₂d₃… * 10 ^ exponent`. -/
structure Digits where
  /-- The digits, without trailing zeros. -/
  digits : List Char
  /-- The power of ten of the first digit. -/
  exponent : Int

/-- The number of decimal digits of a natural number. -/
def digitCount (n : Nat) : Nat :=
  (Text.digits n).length

/-- The decimals of a binary number: those that are read as it lie from `low` to `high` on the
scale where the number itself is `value` and one is `one`. -/
structure Neighbourhood where
  /-- The number. -/
  value : Nat
  /-- The lower end. -/
  low : Nat
  /-- The upper end. -/
  high : Nat
  /-- Whether the ends themselves are read as the number. -/
  closed : Bool
  /-- The scale. -/
  one : Nat

namespace Neighbourhood

variable (x : Neighbourhood)

/-- The power of ten just above the number: `10 ^ (k - 1) ≤ value / one < 10 ^ k`. -/
def magnitude : Int :=
  let k : Int := (digitCount x.value : Int) - digitCount x.one
  if x.one * Nat.pow 10 k.toNat ≤ x.value * Nat.pow 10 (-k).toNat then k + 1 else k

/-- The decimal `c * 10 ^ e` is read as the number. -/
def holds (c : Nat) (e : Int) : Bool :=
  let point := c * Nat.pow 10 e.toNat * x.one
  let low := x.low * Nat.pow 10 (-e).toNat
  let high := x.high * Nat.pow 10 (-e).toNat
  if x.closed then decide (low ≤ point) && decide (point ≤ high)
  else decide (low < point) && decide (point < high)

/-- The coefficient of the decimal `c * 10 ^ e` that is read as the number and nearest to it, if
there is one. -/
def onGrid? (tie : Tie) (e : Int) : Option Nat :=
  let num := x.value * Nat.pow 10 (-e).toNat
  let den := x.one * Nat.pow 10 e.toNat
  let below := num / den
  let above := below + 1
  match x.holds below e, x.holds above e with
  | false, false => none
  | true, false => some below
  | false, true => some above
  | true, true =>
    let twice := 2 * (num % den)
    if twice < den then some below
    else if den < twice then some above
    else match tie with
      | .up => some above
      | .toEven => if below % 2 = 0 then some below else some above

/-- The first grid, of the `count` ones that start with `digits` digits, on which a decimal is read
as the number. -/
def search (tie : Tie) (magnitude : Int) (digits : Nat) : Nat → Nat × Int
  | 0 => (x.value / x.one, 0)
  | count + 1 =>
    match x.onGrid? tie (magnitude - digits) with
    | some c => (c, magnitude - digits)
    | none => search tie magnitude (digits + 1) count

end Neighbourhood

/-- The neighbourhood of the positive number `m * 2 ^ q`.  Below a power of two the numbers lie
twice as close, unless they are the smallest of the format. -/
def Format.neighbourhood (f : Format) (m : Nat) (q : Int) : Neighbourhood :=
  let isPower := m == Nat.pow 2 f.fractionBits && decide (f.leastExponent < q)
  let unit := timesPower 1 1 (q - 2)
  { value := 4 * m * unit.1
    low := (4 * m - if isPower then 1 else 2) * unit.1
    high := (4 * m + 2) * unit.1
    closed := m % 2 == 0
    one := unit.2 }

/-- The most digits that a number of the format needs. -/
def Format.mostDigits (f : Format) : Nat :=
  (f.fractionBits + 1) * 30103 / 100000 + 2

/-- The shortest digits of the positive number `m * 2 ^ q`. -/
def Format.shortest (f : Format) (tie : Tie) (m : Nat) (q : Int) : Digits :=
  let x := f.neighbourhood m q
  let (c, e) := x.search tie x.magnitude 1 f.mostDigits
  let digits := Text.digits c
  { digits := (digits.reverse.dropWhile (· == '0')).reverse
    exponent := e + digits.length - 1 }

end RingScan.Decimal
