/-!
# Binary numbers

The interchange formats of binary floating point: what a pattern of bits stands for, and the
pattern nearest to a quotient of natural numbers.  Everything is exact arithmetic on `Nat` and
`Int`; no operation here depends on a machine's floating point.

## Main definitions

* `Decimal.Format`: a format, given by the numbers of fraction and exponent bits.
* `Decimal.Format.read`: the number that a pattern of bits stands for.
* `Decimal.Format.nearest`: the pattern nearest to a quotient, a tie going to the even pattern.
-/

namespace RingScan.Decimal

/-- A binary interchange format. -/
structure Format where
  /-- The number of stored fraction bits. -/
  fractionBits : Nat
  /-- The number of exponent bits. -/
  exponentBits : Nat

/-- What a pattern of bits stands for. -/
inductive Number where
  /-- No number. -/
  | nan
  /-- An infinity. -/
  | infinite (negative : Bool)
  /-- The number `m * 2 ^ q` with its sign. -/
  | finite (negative : Bool) (m : Nat) (q : Int)

namespace Format

variable (f : Format)

/-- The format of 64-bit numbers. -/
def double : Format := ⟨52, 11⟩

/-- The format of 32-bit numbers. -/
def single : Format := ⟨23, 8⟩

/-- The exponent of the last place of the smallest numbers. -/
def leastExponent : Int :=
  2 - Nat.pow 2 (f.exponentBits - 1) - f.fractionBits

/-- The pattern of positive infinity, which is above every finite pattern. -/
def infinity : Nat :=
  (Nat.pow 2 f.exponentBits - 1) * Nat.pow 2 f.fractionBits

/-- The sign bit, which is the pattern of the negative zero. -/
def signBit : Nat :=
  Nat.pow 2 (f.fractionBits + f.exponentBits)

/-- The number that a pattern of bits stands for. -/
def read (bits : Nat) : Number :=
  let negative := decide (f.signBit ≤ bits)
  let magnitude := bits % f.signBit
  let field := magnitude / Nat.pow 2 f.fractionBits
  let fraction := magnitude % Nat.pow 2 f.fractionBits
  if field = Nat.pow 2 f.exponentBits - 1 then
    if fraction = 0 then .infinite negative else .nan
  else if field = 0 then .finite negative fraction f.leastExponent
  else .finite negative (Nat.pow 2 f.fractionBits + fraction) (f.leastExponent + field - 1)

end Format

/-- A quotient rounded to a natural number, a tie going to the even one. -/
def roundEven (num den : Nat) : Nat :=
  let floor := num / den
  let twice := 2 * (num % den)
  if twice < den then floor
  else if den < twice then floor + 1
  else floor + floor % 2

/-- A quotient times `2 ^ q`, as a numerator and a denominator. -/
def timesPower (num den : Nat) (q : Int) : Nat × Nat :=
  match q with
  | .ofNat k => (num * Nat.pow 2 k, den)
  | .negSucc k => (num, den * Nat.pow 2 (k + 1))

/-- The pattern of the number nearest to `num / den`, infinity above the largest number. -/
def Format.nearest (f : Format) (num den : Nat) : Nat :=
  if num = 0 then 0 else
    let guess : Int := (num.log2 : Int) - den.log2 - 1 - f.fractionBits
    let scaled := timesPower num den (-guess)
    let isBelow := scaled.1 < Nat.pow 2 (f.fractionBits + 1) * scaled.2
    let q := max (if isBelow then guess else guess + 1) f.leastExponent
    let place := timesPower num den (-q)
    let field := (q - f.leastExponent).toNat
    min (field * Nat.pow 2 f.fractionBits + roundEven place.1 place.2) f.infinity

end RingScan.Decimal
