import RingScan.Text.Utf8

/-!
# Integers as bytes

Integers of a fixed number of bytes, the most significant byte first; negative ones as their two's
complement.

## Main definitions

* `Cell.bigEndian`, `Cell.ofBigEndian`: a natural number as bytes and back.
* `Cell.ofInteger`, `Cell.toInteger`: an integer as bytes and back.

## Main statements

* `Cell.ofBigEndian_bigEndian`: a natural number that fits its bytes is read back.
-/

namespace RingScan.Cell

/-- The `width` lowest bytes of a natural number. -/
def bigEndian : Nat → Nat → Bytes
  | 0, _ => []
  | width + 1, n => bigEndian width (n / 256) ++ [UInt8.ofNat (n % 256)]

/-- The natural number of a list of bytes. -/
def ofBigEndian (bytes : Bytes) : Nat :=
  bytes.foldl (fun n b => n * 256 + b.toNat) 0

/-- An integer fits a number of bytes. -/
def fits (width : Nat) (n : Int) : Bool :=
  let bound : Int := Nat.pow 2 (8 * width - 1)
  decide (-bound ≤ n) && decide (n < bound)

/-- An integer as `width` bytes. -/
def ofInteger (width : Nat) (n : Int) : Bytes :=
  let bound : Int := Nat.pow 2 (8 * width)
  bigEndian width (n % bound).toNat

/-- The integer of a list of bytes. -/
def toInteger (bytes : Bytes) : Int :=
  let n := ofBigEndian bytes
  let bound := Nat.pow 2 (8 * bytes.length)
  if 2 * n < bound then n else (n : Int) - bound

@[simp]
theorem length_bigEndian (width n : Nat) : (bigEndian width n).length = width := by
  induction width generalizing n with
  | zero => rfl
  | succ width ih => simp [bigEndian, ih]

theorem ofBigEndian_append (bytes : Bytes) (b : UInt8) :
    ofBigEndian (bytes ++ [b]) = ofBigEndian bytes * 256 + b.toNat := by
  simp only [ofBigEndian, List.foldl_append, List.foldl_cons, List.foldl_nil]

theorem ofBigEndian_bigEndian {width n : Nat} (h : n < Nat.pow 256 width) :
    ofBigEndian (bigEndian width n) = n := by
  induction width generalizing n with
  | zero => exact (Nat.lt_one_iff.1 h).symm
  | succ width ih =>
    have hhigh : n / 256 < Nat.pow 256 width := Nat.div_lt_of_lt_mul (by
      rwa [Nat.mul_comm])
    have hlow : (UInt8.ofNat (n % 256)).toNat = n % 256 := by
      rw [UInt8.toNat_ofNat']
      omega
    rw [bigEndian, ofBigEndian_append, ih hhigh, hlow]
    omega

@[simp]
theorem length_ofInteger (width : Nat) (n : Int) : (ofInteger width n).length = width :=
  length_bigEndian ..

end RingScan.Cell
