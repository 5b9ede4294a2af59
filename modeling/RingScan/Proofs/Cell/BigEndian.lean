import Mathlib.Data.List.Induction
import Mathlib.Algebra.Order.Ring.Int
import RingScan.Cell.BigEndian

/-!
# Integers as bytes and back

Bytes and the number that they stand for determine each other, once it is known how many bytes there
are.  The same holds of integers in two's complement: so many bytes stand for the integers that fit
them, and for each of these once.

## Main statements

* `Cell.bigEndian_ofBigEndian`: bytes are written from their number.
* `Cell.toInteger_ofInteger`, `Cell.ofInteger_toInteger`: integers that fit, and their bytes.
-/

namespace RingScan.Cell

theorem ofBigEndian_lt (bytes : Bytes) : ofBigEndian bytes < 256 ^ bytes.length := by
  induction bytes using List.reverseRecOn with
  | nil => exact Nat.one_pos
  | append_singleton bytes b ih =>
    have hb : b.toNat < 256 := b.toNat_lt
    rw [ofBigEndian_append, List.length_append, List.length_singleton, pow_succ]
    omega

theorem bigEndian_ofBigEndian (bytes : Bytes) :
    bigEndian bytes.length (ofBigEndian bytes) = bytes := by
  induction bytes using List.reverseRecOn with
  | nil => rfl
  | append_singleton bytes b ih =>
    have hb : b.toNat < 256 := b.toNat_lt
    have hhigh : (ofBigEndian bytes * 256 + b.toNat) / 256 = ofBigEndian bytes := by omega
    have hlow : (ofBigEndian bytes * 256 + b.toNat) % 256 = b.toNat := by omega
    rw [ofBigEndian_append, List.length_append, List.length_singleton, bigEndian, hhigh, hlow, ih,
      UInt8.ofNat_toNat]

/-! ### Two's complement -/

private theorem cast_two_pow (k : ℕ) : ((Nat.pow 2 k : ℕ) : ℤ) = 2 ^ k := by
  rw [Nat.pow_eq]
  push_cast
  rfl

/-- Half of the numbers of so many bytes are below the bound of the integers that fit. -/
theorem two_pow_eq {width : ℕ} (h : 0 < width) :
    (2 : ℤ) ^ (8 * width) = 2 * 2 ^ (8 * width - 1) := by
  rw [show 8 * width = 8 * width - 1 + 1 by omega, pow_succ, Nat.add_sub_cancel, mul_comm]

theorem fits_iff {width : ℕ} {n : ℤ} :
    fits width n = true ↔ -(2 : ℤ) ^ (8 * width - 1) ≤ n ∧ n < 2 ^ (8 * width - 1) := by
  simp only [fits, cast_two_pow, Bool.and_eq_true, decide_eq_true_eq]

/-- The number of some bytes is below the bound of these. -/
theorem cast_ofBigEndian_lt (bytes : Bytes) :
    (ofBigEndian bytes : ℤ) < 2 ^ (8 * bytes.length) := by
  have h : ofBigEndian bytes < 2 ^ (8 * bytes.length) := by
    rw [pow_mul]
    exact ofBigEndian_lt bytes
  exact_mod_cast h

/-- The number of the bytes of an integer. -/
theorem ofBigEndian_ofInteger (width : ℕ) (n : ℤ) :
    (ofBigEndian (ofInteger width n) : ℤ) = n % 2 ^ (8 * width) := by
  have hpos : (0 : ℤ) < 2 ^ (8 * width) := pow_pos (by decide) _
  have hnonneg : 0 ≤ n % 2 ^ (8 * width) := Int.emod_nonneg n hpos.ne'
  have hlt : n % 2 ^ (8 * width) < 2 ^ (8 * width) := Int.emod_lt_of_pos n hpos
  have hbytes : (n % 2 ^ (8 * width)).toNat < Nat.pow 256 width := by
    rw [Int.toNat_lt hnonneg, Nat.pow_eq, show 256 = 2 ^ 8 by rfl, ← pow_mul]
    push_cast
    exact hlt
  rw [ofInteger, cast_two_pow, ofBigEndian_bigEndian hbytes, Int.toNat_of_nonneg hnonneg]

/-- The integer of some bytes is their number, or one turn less if that is in the upper half. -/
theorem toInteger_eq (bytes : Bytes) :
    toInteger bytes = if 2 * (ofBigEndian bytes : ℤ) < 2 ^ (8 * bytes.length) then
      (ofBigEndian bytes : ℤ) else ofBigEndian bytes - 2 ^ (8 * bytes.length) := by
  have hiff : 2 * ofBigEndian bytes < Nat.pow 2 (8 * bytes.length) ↔
      2 * (ofBigEndian bytes : ℤ) < 2 ^ (8 * bytes.length) := by
    rw [← cast_two_pow]
    exact_mod_cast Iff.rfl
  simp only [toInteger, hiff, cast_two_pow]

/-- An integer that fits is read from its bytes. -/
theorem toInteger_ofInteger {width : ℕ} (hwidth : 0 < width) {n : ℤ} (h : fits width n = true) :
    toInteger (ofInteger width n) = n := by
  rw [fits_iff] at h
  have htwice := two_pow_eq hwidth
  rw [toInteger_eq, length_ofInteger, ofBigEndian_ofInteger]
  rcases lt_or_ge n 0 with hn | hn
  · have hmod : n % 2 ^ (8 * width) = n + 2 ^ (8 * width) := by
      rw [← Int.add_emod_right, Int.emod_eq_of_lt (by omega) (by omega)]
    rw [hmod, if_neg (by omega)]
    omega
  · rw [Int.emod_eq_of_lt hn (by omega), if_pos (by omega)]

/-- Bytes are written from their integer. -/
theorem ofInteger_toInteger (bytes : Bytes) :
    ofInteger bytes.length (toInteger bytes) = bytes := by
  have hlt := cast_ofBigEndian_lt bytes
  have hmod : toInteger bytes % 2 ^ (8 * bytes.length) = ofBigEndian bytes := by
    rw [toInteger_eq]
    split_ifs
    · exact Int.emod_eq_of_lt (by omega) hlt
    · rw [Int.sub_emod_right, Int.emod_eq_of_lt (by omega) hlt]
  rw [ofInteger, cast_two_pow, hmod, Int.toNat_natCast, bigEndian_ofBigEndian]

/-- The integer of some bytes fits them. -/
theorem fits_toInteger {bytes : Bytes} (h : bytes ≠ []) :
    fits bytes.length (toInteger bytes) = true := by
  have hlt := cast_ofBigEndian_lt bytes
  have htwice := two_pow_eq (List.length_pos_iff.2 h)
  rw [fits_iff, toInteger_eq]
  split_ifs <;> omega

end RingScan.Cell
