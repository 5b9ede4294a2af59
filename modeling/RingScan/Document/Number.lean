import RingScan.Decimal.Real
import RingScan.Document.Basic

/-!
# Numbers of a document

A number without point and exponent is whole as long as it fits 64 bits, with the one exception of
the negative zero; every other number is a real.  A real is its first digits, as many as fit 64
bits, times a power of ten (`Double.scaled?`).

## Main definitions

* `Document.Number`: what a number of a document stands for.
* `Document.number`: the number at the front of the remaining characters.
-/

namespace RingScan.Document

/-- What a number of a document stands for. -/
inductive Number where
  /-- The whole number `n`, below `2 ^ 64`. -/
  | whole (n : Nat)
  /-- The whole number `-n`, where `n` is from one to `2 ^ 63`. -/
  | negative (n : Nat)
  /-- A real number. -/
  | real (x : Double)

/-- The value of a digit. -/
def digitValue (c : Char) : Nat :=
  c.toNat - '0'.toNat

/-- The value of the longest run of digits that fits 64 bits after digits of value `n`, and the
number of digits left over. -/
def significand (n : Nat) : List Char → Nat × Nat
  | [] => (n, 0)
  | c :: cs =>
    if n * 10 + digitValue c < Nat.pow 2 64 then significand (n * 10 + digitValue c) cs
    else (n, cs.length + 1)

/-- The real number of a sign, a whole number and a power of ten. -/
def real (negative : Bool) (n : Nat) (exponent : Int) (s : List Char) :
    Except Fault (Number × List Char) :=
  match Double.scaled? n exponent with
  | none => .error .malformed
  | some x => .ok (.real (if negative then x.neg else x), s)

/-- The real number whose exponent is at the front of the remaining characters. -/
def exponent (negative : Bool) (n : Nat) (scale : Int) (s : List Char) :
    Except Fault (Number × List Char) :=
  let minus := s.head? == some '-'
  let s := if minus || s.head? == some '+' then s.drop 1 else s
  match s with
  | [] => .error .truncated
  | c :: _ =>
    if c.isDigit then
      let power : Int := (s.takeWhile Char.isDigit).foldl (fun e c => e * 10 + digitValue c) 0
      real negative n (if minus then scale - power else scale + power) (s.dropWhile Char.isDigit)
    else .error .malformed

/-- The real number whose digits after the point are at the front of the remaining characters. -/
def fraction (negative : Bool) (n : Nat) (scale : Int) (s : List Char) :
    Except Fault (Number × List Char) :=
  let digits := s.takeWhile Char.isDigit
  let rest := s.dropWhile Char.isDigit
  if digits.isEmpty then
    if rest.isEmpty then .error .truncated else .error .malformed
  else
    let (n, left) := significand n digits
    let scale := scale - (digits.length - left : Nat)
    match rest with
    | 'e' :: rest => exponent negative n scale rest
    | 'E' :: rest => exponent negative n scale rest
    | rest => real negative n scale rest

/-- The number with the digits `digits`, of which what follows is at the front of the remaining
characters. -/
def afterDigits (negative : Bool) (digits s : List Char) : Except Fault (Number × List Char) :=
  let (n, left) := significand 0 digits
  match s with
  | '.' :: s => fraction negative n left s
  | 'e' :: s => exponent negative n left s
  | 'E' :: s => exponent negative n left s
  | s =>
    if left ≠ 0 then real negative n left s
    else if !negative then .ok (.whole n, s)
    else if n = 0 ∨ Nat.pow 2 63 < n then .ok (.real (Double.ofNat n).neg, s)
    else .ok (.negative n, s)

/-- The number whose digits are at the front of the remaining characters. -/
def unsigned (negative : Bool) : Reader Number
  | [] => .error .truncated
  | '0' :: s =>
    if s.head?.any Char.isDigit then .error .malformed else afterDigits negative ['0'] s
  | c :: s =>
    if c.isDigit then
      afterDigits negative (c :: s.takeWhile Char.isDigit) (s.dropWhile Char.isDigit)
    else .error .malformed

/-- The number at the front of the remaining characters. -/
def number : Reader Number
  | '-' :: s => unsigned true s
  | s => unsigned false s

end RingScan.Document
