import RingScan.Proofs.Hash.Mixing

/-!
# The hash with every access guarded

The hash is computed once more, in the way of a machine: the bytes of a block and the bytes left
over are read at their indices, from the last one to the first, and each is shifted to its place.
There is no result if an index has no byte or if a word would be shifted by its whole length or
more.  Yet there always is one, and it is the hash.

## Main definitions

* `Murmur.shiftLeft?`, `Murmur.shiftRight?`: a shift that leaves some bits.
* `Murmur.gather?`: the bytes between two indices in a word.
* `Murmur.hash?`: the hash of a key.

## Main statements

* `Murmur.gather?_eq_some`: bytes that are there, and not more than a word holds.
* `Murmur.hash?_eq_some`: the hash.
-/

namespace RingScan.Murmur

/-! ### Guarded operations -/

/-- A word shifted to the left, by less than its length. -/
def shiftLeft? (x : UInt64) (places : ℕ) : Option UInt64 :=
  if places < 64 then some (x <<< UInt64.ofNat places) else none

/-- A word shifted to the right, by less than its length. -/
def shiftRight? (x : UInt64) (places : ℕ) : Option UInt64 :=
  if places < 64 then some (x >>> UInt64.ofNat places) else none

/-- A word turned to the left. -/
def rotate? (x : UInt64) (places : ℕ) : Option UInt64 := do
  return (← shiftLeft? x places) ||| (← shiftRight? x (64 - places))

/-- A word of a block as it enters the first lane. -/
def mix₁? (k : UInt64) : Option UInt64 := do
  return (← rotate? (k * factor₁) 31) * factor₂

/-- A word of a block as it enters the second lane. -/
def mix₂? (k : UInt64) : Option UInt64 := do
  return (← rotate? (k * factor₂) 33) * factor₁

/-- The state after a block of two words. -/
def mixBlock? (h : Lanes) (k₁ k₂ : UInt64) : Option Lanes := do
  let turned₁ ← rotate? (h.first ^^^ (← mix₁? k₁)) 27
  let first := (turned₁ + h.second) * 5 + 0x52dce729
  let turned₂ ← rotate? (h.second ^^^ (← mix₂? k₂)) 31
  let second := (turned₂ + first) * 5 + 0x38495ab5
  return ⟨first, second⟩

/-- The last mixing of a word. -/
def avalanche? (k : UInt64) : Option UInt64 := do
  let k := (k ^^^ (← shiftRight? k 33)) * 0xff51afd7ed558ccd
  let k := (k ^^^ (← shiftRight? k 33)) * 0xc4ceb9fe1a85ec53
  return k ^^^ (← shiftRight? k 33)

/-- The result for a state after all bytes of a key of the given length. -/
def finish? (length : ℕ) (h : Lanes) : Option Lanes := do
  let n := UInt64.ofNat length
  let h := addLanes ⟨h.first ^^^ n, h.second ^^^ n⟩
  return addLanes ⟨← avalanche? h.first, ← avalanche? h.second⟩

/-- A word into which the byte at an index is put: the byte is read, widened and shifted to its
place among the bytes from the given start on. -/
def place? (widen : UInt8 → UInt64) (bytes : Bytes) (start : ℕ) (k : UInt64) (i : ℕ) :
    Option UInt64 := do
  let b ← bytes[i]?
  return k ^^^ (← shiftLeft? (widen b) ((i - start) * 8))

/-- The bytes from one index up to another in a word, placed from the last one to the first. -/
def gather? (widen : UInt8 → UInt64) (bytes : Bytes) (start stop : ℕ) : Option UInt64 :=
  (List.range' start (stop - start)).reverse.foldlM (place? widen bytes start) 0

/-- The state after so many blocks, and the bytes that follow them. -/
def absorb? : ℕ → Lanes → Bytes → Option (Lanes × Bytes)
  | 0, h, key => some (h, key)
  | n + 1, h, key => do
    let block := key.take 16
    let k₁ ← gather? UInt8.toUInt64 block 0 8
    let k₂ ← gather? UInt8.toUInt64 block 8 16
    absorb? n (← mixBlock? h k₁ k₂) (key.drop 16)

/-- The state after the bytes left over. -/
def mixTail? (h : Lanes) (tail : Bytes) : Option Lanes := do
  let k₂ ← gather? signed tail 8 tail.length
  let k₁ ← gather? signed tail 0 (min tail.length 8)
  return ⟨h.first ^^^ (← mix₁? k₁), h.second ^^^ (← mix₂? k₂)⟩

/-- The hash of a key. -/
def hash? (key : Bytes) : Option Lanes := do
  let (h, tail) ← absorb? (key.length / 16) ⟨0, 0⟩ key
  finish? key.length (← mixTail? h tail)

/-! ### Shifts by fixed numbers of places -/

theorem mix₁?_eq_some (k : UInt64) : mix₁? k = some (mix₁ k) :=
  rfl

theorem mix₂?_eq_some (k : UInt64) : mix₂? k = some (mix₂ k) :=
  rfl

theorem mixBlock?_eq_some (h : Lanes) (k₁ k₂ : UInt64) :
    mixBlock? h k₁ k₂ = some (mixBlock h k₁ k₂) :=
  rfl

theorem finish?_eq_some (length : ℕ) (h : Lanes) : finish? length h = some (finish length h) :=
  rfl

/-! ### Bytes read at their indices -/

variable {widen : UInt8 → UInt64} {bytes : Bytes} {start stop : ℕ}

theorem place?_eq_some {b : UInt8} {n : ℕ} (hb : bytes[start + n]? = some b) (hn : n < 8)
    (k : UInt64) : place? widen bytes start k (start + n) =
      some (k ^^^ (widen b <<< UInt64.ofNat (n * 8))) := by
  have hshift : shiftLeft? (widen b) (n * 8) = some (widen b <<< UInt64.ofNat (n * 8)) :=
    if_pos (by omega)
  rw [place?, hb, Nat.add_sub_cancel_left, Option.bind_eq_bind, Option.bind_some, hshift]
  rfl

-- The induction is on the number of bytes: the last one is placed first, and it is the one that
-- stands behind all others in the word.
theorem foldlM_place? {n : ℕ} (hn : n ≤ bytes.length - start) (hle : n ≤ 8) (k : UInt64) :
    (List.range' start n).reverse.foldlM (place? widen bytes start) k =
      some (k ^^^ packed widen ((bytes.drop start).take n)) := by
  induction n generalizing k with
  | zero =>
    rw [List.take_zero, packed, UInt64.xor_zero]
    rfl
  | succ n ih =>
    have hlength : ((bytes.drop start).take n).length = n := by
      rw [List.length_take, List.length_drop]
      omega
    obtain ⟨b, hb⟩ : ∃ b, bytes[start + n]? = some b :=
      ⟨_, List.getElem?_eq_getElem (by omega)⟩
    have htake : (bytes.drop start).take (n + 1) = (bytes.drop start).take n ++ [b] := by
      rw [List.take_add_one, List.getElem?_drop, hb, Option.toList_some]
    rw [List.range'_concat, Nat.one_mul, List.reverse_append, List.reverse_singleton,
      List.singleton_append, List.foldlM_cons, place?_eq_some hb (by omega), Option.bind_eq_bind,
      Option.bind_some, ih (by omega) (by omega), htake, packed_concat widen b (by omega), hlength,
      UInt64.xor_assoc, UInt64.xor_comm (packed _ _)]

/-- Bytes that are there, and not more than a word holds, are gathered into their word. -/
theorem gather?_eq_some (hstop : stop ≤ bytes.length) (hle : stop - start ≤ 8) :
    gather? widen bytes start stop =
      some (packed widen ((bytes.drop start).take (stop - start))) := by
  rw [gather?, foldlM_place? (by omega) hle, UInt64.zero_xor]

/-! ### Blocks, bytes left over and keys -/

theorem absorb?_eq_some (h : Lanes) (key : Bytes) :
    absorb? (key.length / 16) h key = some (absorb h key) := by
  generalize hn : key.length / 16 = n
  induction n generalizing h key with
  | zero => rw [absorb_of_lt (by omega), absorb?]
  | succ n ih =>
    have hblock : (key.take 16).length = 16 := by
      rw [List.length_take]
      omega
    have hfirst : gather? UInt8.toUInt64 (key.take 16) 0 8 =
        some (word ((key.take 16).take 8)) := by
      rw [gather?_eq_some (by omega) (by decide), word_eq_packed]
      rfl
    have hsecond : gather? UInt8.toUInt64 (key.take 16) 8 16 =
        some (word ((key.take 16).drop 8)) := by
      rw [gather?_eq_some (by omega) (by decide), word_eq_packed,
        List.take_of_length_le (by rw [List.length_drop]; omega)]
    have hrest : (key.drop 16).length / 16 = n := by
      rw [List.length_drop]
      omega
    rw [absorb_of_le (by omega)]
    simp only [absorb?, hfirst, hsecond, Option.bind_eq_bind, Option.bind_some, mixBlock?_eq_some]
    exact ih (mixBytes h (key.take 16)) (key.drop 16) hrest

theorem mixTail?_eq_some (h : Lanes) {tail : Bytes} (hlt : tail.length < 16) :
    mixTail? h tail = some (mixTail h tail) := by
  have hsecond : gather? signed tail 8 tail.length = some (signedWord (tail.drop 8)) := by
    rw [gather?_eq_some (Nat.le_refl _) (by omega), signedWord_eq_packed,
      List.take_of_length_le (Nat.le_of_eq List.length_drop)]
  have hfirst : gather? signed tail 0 (min tail.length 8) = some (signedWord (tail.take 8)) := by
    rw [gather?_eq_some (by omega) (by omega), signedWord_eq_packed, List.drop_zero, Nat.sub_zero,
      Nat.min_comm, ← List.take_eq_take_min]
  simp only [mixTail?, hsecond, hfirst, Option.bind_eq_bind, Option.bind_some, mix₁?_eq_some,
    mix₂?_eq_some]
  rfl

/-- The hash is computed without a byte that is not there and without a shift by the whole length of
a word. -/
theorem hash?_eq_some (key : Bytes) : hash? key = some (hash key) := by
  have htail := mixTail?_eq_some (absorb ⟨0, 0⟩ key).1 (length_absorb_lt ⟨0, 0⟩ key)
  rw [hash?, absorb?_eq_some]
  change (mixTail? _ _).bind (finish? key.length) = _
  rw [htail, Option.bind_some, finish?_eq_some]
  rfl

/-- A key without a block; of its three bytes two have a sign. -/
example : (hash? [0xff, 0x80, 0x01]).map (·.first.toInt64) = some (-6979169580508520651) := by
  decide

end RingScan.Murmur
