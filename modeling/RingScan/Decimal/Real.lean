import RingScan.Decimal.Style

/-!
# Real values of columns

The two types of real numbers that a column may hold, kept as their bits so that equality, order of
bytes and text depend on nothing but the value.

## Main definitions

* `Double`, `Single`: a 64-bit and a 32-bit real.
* `Double.scaled?`: a whole number times a power of ten.
* `Single.widen`, `Double.narrow`: from one type to the other.
-/

namespace RingScan

open Decimal

/-- A 64-bit real number. -/
structure Double where
  /-- The bits of the number. -/
  bits : UInt64
  deriving DecidableEq, Repr

/-- A 32-bit real number. -/
structure Single where
  /-- The bits of the number. -/
  bits : UInt32
  deriving DecidableEq, Repr

namespace Double

/-- The nearest number to a quotient, with a sign. -/
def ofQuotient (negative : Bool) (num den : Nat) : Double :=
  let magnitude := Format.double.nearest num den
  ⟨UInt64.ofNat (if negative then Format.double.signBit + magnitude else magnitude)⟩

/-- The nearest number to a natural number. -/
def ofNat (n : Nat) : Double :=
  ofQuotient false n 1

/-- The number of opposite sign. -/
def neg (x : Double) : Double :=
  ⟨x.bits ^^^ 0x8000000000000000⟩

/-- What the number stands for. -/
def number (x : Double) : Number :=
  Format.double.read x.bits.toNat

/-- A finite magnitude as a quotient. -/
def quotient (x : Double) : Nat × Nat :=
  match x.number with
  | .finite _ m q => timesPower m 1 q
  | _ => (0, 1)

/-- The rounded product of two finite magnitudes. -/
def mul (x y : Double) : Double :=
  ofQuotient false (x.quotient.1 * y.quotient.1) (x.quotient.2 * y.quotient.2)

/-- The rounded quotient of two finite magnitudes. -/
def div (x y : Double) : Double :=
  ofQuotient false (x.quotient.1 * y.quotient.2) (x.quotient.2 * y.quotient.1)

/-- The number is neither infinite nor outside the numbers. -/
def isFinite (x : Double) : Bool :=
  match x.number with
  | .finite .. => true
  | _ => false

/-- A whole number times a power of ten, each of the two factors and their product rounded to a
number.  A divisor is at most `10 ^ 308`: what is left of a smaller power divides the result, and
what would need a third divisor is zero.  A product above every number has no value. -/
def scaled? (significand : Nat) (exponent : Int) : Option Double :=
  let x := ofNat significand
  let power := fun k => ofNat (Nat.pow 10 k)
  if significand = 0 then some x
  else if 308 < exponent then none
  else if 0 ≤ exponent then
    let product := x.mul (power exponent.toNat)
    if product.isFinite then some product else none
  else if -308 ≤ exponent then some (x.div (power (-exponent).toNat))
  else if -616 ≤ exponent then
    some ((x.div (power 308)).div (power (-exponent - 308).toNat))
  else some ⟨0⟩

end Double

namespace Single

/-- What the number stands for. -/
def number (x : Single) : Number :=
  Format.single.read x.bits.toNat

/-- The nearest number to a quotient, with a sign. -/
def ofQuotient (negative : Bool) (num den : Nat) : Single :=
  let magnitude := Format.single.nearest num den
  ⟨UInt32.ofNat (if negative then Format.single.signBit + magnitude else magnitude)⟩

/-- The same number as a 64-bit real; what is no number keeps its sign and fraction and is quiet. -/
def widen (x : Single) : Double :=
  match x.number with
  | .finite negative m q =>
    let (num, den) := timesPower m 1 q
    Double.ofQuotient negative num den
  | .infinite negative =>
    ⟨UInt64.ofNat (Format.double.infinity + if negative then Format.double.signBit else 0)⟩
  | .nan =>
    let sign := if Format.single.signBit ≤ x.bits.toNat then Format.double.signBit else 0
    let fraction := x.bits.toNat % Nat.pow 2 Format.single.fractionBits
    let quiet := if fraction < Nat.pow 2 22 then fraction + Nat.pow 2 22 else fraction
    ⟨UInt64.ofNat (sign + Format.double.infinity + quiet * Nat.pow 2 29)⟩

end Single

/-- The nearest 32-bit real, infinite where none is near. -/
def Double.narrow (x : Double) : Single :=
  match x.number with
  | .finite negative m q =>
    let (num, den) := timesPower m 1 q
    Single.ofQuotient negative num den
  | .infinite negative =>
    ⟨UInt32.ofNat (Format.single.infinity + if negative then Format.single.signBit else 0)⟩
  | .nan => ⟨UInt32.ofNat (Format.single.infinity + Nat.pow 2 22)⟩

end RingScan
