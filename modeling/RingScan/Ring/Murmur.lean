import RingScan.Text.Utf8

/-!
# The hash of a key

The 128-bit hash by which keys are spread over the ring, with seed zero.  A key is absorbed in
blocks of sixteen bytes; the bytes left over enter with their sign extended, and the result is
finished by mixing the two lanes with the length of the key.

## Main definitions

* `Murmur.Lanes`: the state of the hash.
* `Murmur.mixBlock`, `Murmur.mixTail`, `Murmur.finish`: its steps.
* `Murmur.hash`: the hash of a key.
-/

namespace RingScan.Murmur

/-- The state of the hash: two words. -/
structure Lanes where
  /-- The first word. -/
  first : UInt64
  /-- The second word. -/
  second : UInt64
  deriving DecidableEq, Repr

/-- A word turned to the left; the bits that leave it enter on the right. -/
def rotate (x places : UInt64) : UInt64 :=
  (x <<< places) ||| (x >>> (64 - places))

/-- The first multiplier of a block. -/
def factor₁ : UInt64 := 0x87c37b91114253d5

/-- The second multiplier of a block. -/
def factor₂ : UInt64 := 0x4cf5ad432745937f

/-- A word of a block as it enters the first lane. -/
def mix₁ (k : UInt64) : UInt64 :=
  rotate (k * factor₁) 31 * factor₂

/-- A word of a block as it enters the second lane. -/
def mix₂ (k : UInt64) : UInt64 :=
  rotate (k * factor₂) 33 * factor₁

/-- The state after a block of two words. -/
def mixBlock (h : Lanes) (k₁ k₂ : UInt64) : Lanes :=
  let first := (rotate (h.first ^^^ mix₁ k₁) 27 + h.second) * 5 + 0x52dce729
  let second := (rotate (h.second ^^^ mix₂ k₂) 31 + first) * 5 + 0x38495ab5
  ⟨first, second⟩

/-- The word of at most eight bytes, the least significant first. -/
def word : Bytes → UInt64
  | [] => 0
  | b :: rest => b.toUInt64 ||| (word rest <<< 8)

/-- A byte with its sign extended to a word. -/
def signed (b : UInt8) : UInt64 :=
  if b < 0x80 then b.toUInt64 else b.toUInt64 ||| 0xffffffffffffff00

/-- The word of at most eight bytes with their signs extended, the least significant first. -/
def signedWord : Bytes → UInt64
  | [] => 0
  | b :: rest => signed b ^^^ (signedWord rest <<< 8)

/-- The state after the bytes left over, of which there are less than sixteen. -/
def mixTail (h : Lanes) (tail : Bytes) : Lanes :=
  ⟨h.first ^^^ mix₁ (signedWord (tail.take 8)), h.second ^^^ mix₂ (signedWord (tail.drop 8))⟩

/-- The last mixing of a word. -/
def avalanche (k : UInt64) : UInt64 :=
  let k := (k ^^^ (k >>> 33)) * 0xff51afd7ed558ccd
  let k := (k ^^^ (k >>> 33)) * 0xc4ceb9fe1a85ec53
  k ^^^ (k >>> 33)

/-- The second lane is added to the first, and the sum to the second. -/
def addLanes (h : Lanes) : Lanes :=
  let first := h.first + h.second
  ⟨first, h.second + first⟩

/-- The result for a state after all bytes of a key of the given length. -/
def finish (length : Nat) (h : Lanes) : Lanes :=
  let n := UInt64.ofNat length
  let h := addLanes ⟨h.first ^^^ n, h.second ^^^ n⟩
  addLanes ⟨avalanche h.first, avalanche h.second⟩

/-- The state after all blocks of a key, and the bytes left over. -/
def absorb (h : Lanes) (key : Bytes) : Lanes × Bytes :=
  match hk : key.drop 15 with
  | [] => (h, key)
  | _ :: rest =>
    have : rest.length < key.length := by
      have := congrArg List.length hk
      simp only [List.length_drop, List.length_cons] at this
      omega
    absorb (mixBlock h (word (key.take 8)) (word ((key.drop 8).take 8))) rest
  termination_by key.length

/-- The hash of a key. -/
def hash (key : Bytes) : Lanes :=
  let (h, tail) := absorb ⟨0, 0⟩ key
  finish key.length (mixTail h tail)

end RingScan.Murmur
