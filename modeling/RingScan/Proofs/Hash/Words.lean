import Mathlib.Data.List.Basic
import RingScan.Ring.Murmur

/-!
# Words that are mixed without loss

Each operation that mixes a word can be undone: a multiplication by an odd word with the inverse
factor, a turn with the turn that completes it, and the exclusive or of a word with itself, shifted
by at least half its length, with the same once more.  So the words of a block, and the words at the
end, are mixed by bijections.

## Main definitions

* `Murmur.bit`: a bit of a word.

## Main statements

* `Murmur.rotate_bijective`, `Murmur.mul_bijective`, `Murmur.xor_shiftRight_involutive`: the
  operations.
* `Murmur.mix₁_bijective`, `Murmur.mix₂_bijective`, `Murmur.avalanche_bijective`: what is made of
  them.
-/

namespace RingScan.Murmur

open Function

/-! ### Bits -/

/-- A bit of a word, counted from the least significant one; there are sixty-four. -/
def bit (x : UInt64) (i : ℕ) : Bool :=
  x.toBitVec.getLsbD i

variable {x y places : UInt64} {i : ℕ}

theorem eq_of_bit_eq (h : ∀ i < 64, bit x i = bit y i) : x = y :=
  UInt64.toBitVec_inj.1 (BitVec.eq_of_getLsbD_eq h)

theorem bit_of_le (h : 64 ≤ i) : bit x i = false :=
  BitVec.getLsbD_of_ge _ _ h

theorem bit_xor : bit (x ^^^ y) i = (bit x i ^^ bit y i) := by
  rw [bit, UInt64.toBitVec_xor, BitVec.getLsbD_xor]
  rfl

theorem bit_or : bit (x ||| y) i = (bit x i || bit y i) := by
  rw [bit, UInt64.toBitVec_or, BitVec.getLsbD_or]
  rfl

/-- The number of places by which a word is shifted is taken modulo sixty-four; below that bound it
is the number itself. -/
private theorem toNat_toBitVec_mod (h : places.toNat < 64) :
    (places.toBitVec % 64).toNat = places.toNat := by
  rw [BitVec.toNat_umod, UInt64.toNat_toBitVec]
  exact Nat.mod_eq_of_lt h

theorem bit_shiftLeft_of_lt (h : places.toNat < 64) (hi : i < places.toNat) :
    bit (x <<< places) i = false := by
  rw [bit, UInt64.toBitVec_shiftLeft, BitVec.shiftLeft_eq', BitVec.getLsbD_shiftLeft,
    toNat_toBitVec_mod h, decide_eq_true hi, Bool.not_true, Bool.and_false, Bool.false_and]

theorem bit_shiftLeft_of_le (h : places.toNat ≤ i) (hi : i < 64) :
    bit (x <<< places) i = bit x (i - places.toNat) := by
  rw [bit, UInt64.toBitVec_shiftLeft, BitVec.shiftLeft_eq', BitVec.getLsbD_shiftLeft,
    toNat_toBitVec_mod (by omega), decide_eq_true hi, decide_eq_false (by omega), Bool.not_false,
    Bool.true_and, Bool.true_and]
  rfl

theorem bit_shiftRight (h : places.toNat < 64) :
    bit (x >>> places) i = bit x (places.toNat + i) := by
  rw [bit, UInt64.toBitVec_shiftRight, BitVec.ushiftRight_eq', BitVec.getLsbD_ushiftRight,
    toNat_toBitVec_mod h]
  rfl

/-! ### Operations that can be undone -/

private theorem toNat_sixtyFour_sub (h : places.toNat < 64) :
    (64 - places).toNat = 64 - places.toNat :=
  UInt64.toNat_sub_of_le 64 places (UInt64.le_iff_toNat_le.2 (Nat.le_of_lt h))

theorem bit_rotate (hpos : 0 < places.toNat) (hlt : places.toNat < 64) (hi : i < 64) :
    bit (rotate x places) i =
      if i < places.toNat then bit x (64 - places.toNat + i) else bit x (i - places.toNat) := by
  have hback := toNat_sixtyFour_sub hlt
  rw [rotate, bit_or, bit_shiftRight (by omega), hback]
  split_ifs with hlow
  · rw [bit_shiftLeft_of_lt hlt hlow, Bool.false_or]
  · rw [bit_shiftLeft_of_le (by omega) hi,
      bit_of_le (show 64 ≤ 64 - places.toNat + i by omega), Bool.or_false]

/-- Two turns that complete each other leave a word as it was. -/
theorem rotate_rotate {back : UInt64} (hpos : 0 < places.toNat) (hback : 0 < back.toNat)
    (hsum : places.toNat + back.toNat = 64) (x : UInt64) : rotate (rotate x places) back = x := by
  refine eq_of_bit_eq fun i hi => ?_
  rw [bit_rotate hback (by omega) hi]
  split_ifs with hlow
  · rw [bit_rotate hpos (by omega) (by omega), if_neg (by omega)]
    congr 1
    omega
  · rw [bit_rotate hpos (by omega) (by omega), if_pos (by omega)]
    congr 1
    omega

theorem rotate_bijective (hpos : 0 < places.toNat) (hlt : places.toNat < 64) :
    Bijective (rotate · places) := by
  have hback := toNat_sixtyFour_sub hlt
  exact bijective_iff_has_inverse.2 ⟨(rotate · (64 - places)),
    rotate_rotate hpos (by omega) (by omega), rotate_rotate (by omega) hpos (by omega)⟩

theorem rotate_inj (hpos : 0 < places.toNat) (hlt : places.toNat < 64) :
    rotate x places = rotate y places ↔ x = y :=
  (rotate_bijective hpos hlt).injective.eq_iff

theorem mul_bijective {factor inverse : UInt64} (h : factor * inverse = 1) :
    Bijective (· * factor) := by
  refine bijective_iff_has_inverse.2 ⟨(· * inverse), fun x => ?_, fun x => ?_⟩
  · change x * factor * inverse = x
    rw [UInt64.mul_assoc, h, UInt64.mul_one]
  · change x * inverse * factor = x
    rw [UInt64.mul_assoc, UInt64.mul_comm inverse, h, UInt64.mul_one]

theorem xor_bijective (mask : UInt64) : Bijective (· ^^^ mask) :=
  Involutive.bijective fun x => by
    rw [UInt64.xor_assoc, UInt64.xor_self, UInt64.xor_zero]

/-- The exclusive or of a word with itself, shifted by at least half its length, gives the word back
when it is made once more: what is shifted twice is gone. -/
theorem xor_shiftRight_involutive (hhalf : 32 ≤ places.toNat) (hlt : places.toNat < 64) :
    Involutive fun x : UInt64 => x ^^^ (x >>> places) := by
  intro x
  refine eq_of_bit_eq fun i _ => ?_
  simp only [bit_xor, bit_shiftRight hlt]
  rw [bit_of_le (show 64 ≤ places.toNat + (places.toNat + i) by omega), Bool.xor_false,
    Bool.xor_assoc, Bool.xor_self, Bool.xor_false]

/-! ### Words of blocks and words at the end -/

theorem factor₁_bijective : Bijective (· * factor₁) :=
  mul_bijective (show factor₁ * 0xa98409e882ce4d7d = 1 by decide)

theorem factor₂_bijective : Bijective (· * factor₂) :=
  mul_bijective (show factor₂ * 0xa81e14edd9de2c7f = 1 by decide)

theorem mix₁_bijective : Bijective mix₁ :=
  factor₂_bijective.comp ((rotate_bijective (by decide) (by decide)).comp factor₁_bijective)

theorem mix₂_bijective : Bijective mix₂ :=
  factor₁_bijective.comp ((rotate_bijective (by decide) (by decide)).comp factor₂_bijective)

theorem mix₁_inj : mix₁ x = mix₁ y ↔ x = y :=
  mix₁_bijective.injective.eq_iff

theorem mix₂_inj : mix₂ x = mix₂ y ↔ x = y :=
  mix₂_bijective.injective.eq_iff

theorem avalanche_bijective : Bijective avalanche :=
  have hxor : Bijective fun x : UInt64 => x ^^^ (x >>> 33) :=
    (xor_shiftRight_involutive (by decide) (by decide)).bijective
  have hfirst : Bijective fun x : UInt64 => x * 0xff51afd7ed558ccd :=
    mul_bijective (show 0xff51afd7ed558ccd * 0x4f74430c22a54005 = 1 by decide)
  have hsecond : Bijective fun x : UInt64 => x * 0xc4ceb9fe1a85ec53 :=
    mul_bijective (show 0xc4ceb9fe1a85ec53 * 0x9cb4b2f8129337db = 1 by decide)
  hxor.comp (hsecond.comp (hxor.comp (hfirst.comp hxor)))

end RingScan.Murmur
