import RingScan.Proofs.Hash.Words

/-!
# Bytes in words

Up to eight bytes are put into a word, each of them widened to a word first: with zeros where the
bytes are of a block, with its sign where they are left over.  A sign fills all bits above its byte,
and so it changes what the bytes after it have put there.  Still the bytes can be told from the
word: the lowest eight bits are the first byte as it was, and once it is known, so is what it has
changed in the bits above.

## Main definitions

* `Murmur.packed`: the word of bytes that are widened in a given way.

## Main statements

* `Murmur.word_eq_packed`, `Murmur.signedWord_eq_packed`: the two ways to widen.
* `Murmur.packed_inj`: so many bytes are told from their word.
-/

namespace RingScan.Murmur

/-- The word of at most eight bytes, each of them widened, the least significant first. -/
def packed (widen : UInt8 → UInt64) : Bytes → UInt64
  | [] => 0
  | b :: rest => widen b ^^^ (packed widen rest <<< 8)

/-! ### Two ways to widen -/

variable {b : UInt8} {i : ℕ}

theorem bit_toUInt64 (h : 8 ≤ i) : bit b.toUInt64 i = false := by
  rw [bit, UInt8.toBitVec_toUInt64, BitVec.getLsbD_setWidth, BitVec.getLsbD_of_ge _ _ h,
    Bool.and_false]

/-- A byte and a word that is shifted past it have no bit in common. -/
theorem or_shiftLeft_eight (b : UInt8) (w : UInt64) :
    b.toUInt64 ||| (w <<< 8) = b.toUInt64 ^^^ (w <<< 8) := by
  refine eq_of_bit_eq fun i hi => ?_
  rw [bit_or, bit_xor]
  rcases Nat.lt_or_ge i 8 with hlow | hhigh
  · rw [bit_shiftLeft_of_lt (by decide) hlow, Bool.or_false, Bool.xor_false]
  · rw [bit_toUInt64 hhigh, Bool.false_or, Bool.false_xor]

/-- One more byte is shifted past those before it. -/
theorem packed_concat (widen : UInt8 → UInt64) (b : UInt8) :
    ∀ {bytes : Bytes}, bytes.length < 8 → packed widen (bytes ++ [b]) =
      packed widen bytes ^^^ (widen b <<< UInt64.ofNat (bytes.length * 8))
  | [], _ => by
    simp only [List.nil_append, packed, UInt64.zero_shiftLeft, UInt64.xor_zero, UInt64.zero_xor]
    exact UInt64.shiftLeft_zero.symm
  | c :: rest, h => by
    rw [List.length_cons] at h
    have hplaces : (UInt64.ofNat (rest.length * 8)).toNat = rest.length * 8 :=
      UInt64.toNat_ofNat_of_lt' (show rest.length * 8 < 2 ^ 64 by omega)
    have hshift : widen b <<< UInt64.ofNat (rest.length * 8) <<< 8 =
        widen b <<< UInt64.ofNat ((rest.length + 1) * 8) := by
      rw [Nat.succ_mul, UInt64.ofNat_add]
      exact (UInt64.shiftLeft_add_of_toNat_lt (by rw [hplaces]; change _ + 8 < 64; omega)).symm
    rw [List.cons_append, packed, packed_concat widen b (by omega), UInt64.shiftLeft_xor, hshift,
      packed, UInt64.xor_assoc, List.length_cons]

theorem word_eq_packed (bytes : Bytes) : word bytes = packed UInt8.toUInt64 bytes := by
  induction bytes with
  | nil => rfl
  | cons b rest ih => rw [word, packed, ih, or_shiftLeft_eight]

theorem signedWord_eq_packed (bytes : Bytes) : signedWord bytes = packed signed bytes := by
  induction bytes with
  | nil => rfl
  | cons b rest ih => rw [signedWord, packed, ih]

/-- The sign of a byte is put above it. -/
theorem toUInt8_signed (b : UInt8) : (signed b).toUInt8 = b := by
  rw [signed]
  split_ifs
  · exact UInt8.toUInt8_toUInt64 b
  · rw [UInt64.toUInt8_or, UInt8.toUInt8_toUInt64]
    exact UInt8.or_zero

/-! ### Bytes told from their word -/

variable {widen : UInt8 → UInt64} {bytes other : Bytes}

theorem bit_packed_cons_of_lt (b : UInt8) (rest : Bytes) (hi : i < 8) :
    bit (packed widen (b :: rest)) i = bit (widen b) i := by
  rw [packed, bit_xor, bit_shiftLeft_of_lt (by decide) hi, Bool.xor_false]

theorem bit_packed_cons_add (b : UInt8) (rest : Bytes) (hi : i + 8 < 64) :
    bit (packed widen (b :: rest)) (i + 8) =
      (bit (widen b) (i + 8) ^^ bit (packed widen rest) i) := by
  rw [packed, bit_xor, bit_shiftLeft_of_le (Nat.le_add_left 8 i) hi]
  rfl

theorem toUInt8_eq_of_bit_eq {x y : UInt64} (h : ∀ i < 8, bit x i = bit y i) :
    x.toUInt8 = y.toUInt8 := by
  refine UInt8.toBitVec_inj.1 (BitVec.eq_of_getLsbD_eq fun i hi => ?_)
  rw [UInt64.toBitVec_toUInt8, UInt64.toBitVec_toUInt8, BitVec.getLsbD_setWidth,
    BitVec.getLsbD_setWidth]
  exact congrArg _ (h i hi)

-- Only the bits where bytes have been put are compared: the word of the bytes after the first one
-- loses its highest bits when it is shifted.
theorem eq_of_bit_packed_eq (hwiden : ∀ b, (widen b).toUInt8 = b)
    (hlength : bytes.length = other.length) (hle : bytes.length ≤ 8)
    (h : ∀ i < 8 * bytes.length, bit (packed widen bytes) i = bit (packed widen other) i) :
    bytes = other := by
  induction bytes generalizing other with
  | nil => exact (List.eq_nil_of_length_eq_zero hlength.symm).symm
  | cons b rest ih =>
    obtain ⟨c, others, rfl⟩ := List.exists_cons_of_length_eq_add_one hlength.symm
    rw [List.length_cons] at hlength hle h
    have hhead : b = c := by
      rw [← hwiden b, ← hwiden c]
      refine toUInt8_eq_of_bit_eq fun i hi => ?_
      rw [← bit_packed_cons_of_lt b rest hi, ← bit_packed_cons_of_lt c others hi, h i (by omega)]
    subst hhead
    refine congrArg (b :: ·) (ih (Nat.succ.inj hlength) (by omega) fun i hi => ?_)
    have hbit := h (i + 8) (by omega)
    rwa [bit_packed_cons_add b rest (by omega), bit_packed_cons_add b others (by omega),
      Bool.xor_right_inj] at hbit

/-- So many bytes, if not more than a word holds, are told from their word. -/
theorem packed_inj (hwiden : ∀ b, (widen b).toUInt8 = b) (hlength : bytes.length = other.length)
    (hle : bytes.length ≤ 8) : packed widen bytes = packed widen other ↔ bytes = other :=
  ⟨fun h => eq_of_bit_packed_eq hwiden hlength hle fun i _ => congrArg (bit · i) h,
    congrArg (packed widen)⟩

theorem word_inj (hlength : bytes.length = other.length) (hle : bytes.length ≤ 8) :
    word bytes = word other ↔ bytes = other := by
  rw [word_eq_packed, word_eq_packed, packed_inj UInt8.toUInt8_toUInt64 hlength hle]

theorem signedWord_inj (hlength : bytes.length = other.length) (hle : bytes.length ≤ 8) :
    signedWord bytes = signedWord other ↔ bytes = other := by
  rw [signedWord_eq_packed, signedWord_eq_packed, packed_inj toUInt8_signed hlength hle]

end RingScan.Murmur
