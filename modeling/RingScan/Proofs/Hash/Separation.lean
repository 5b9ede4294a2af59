import RingScan.Proofs.Hash.Guarded

/-!
# Keys that the hash tells apart

A key is cut into segments, its blocks of sixteen bytes and the bytes left over.  The hash has fewer
values than there are keys, but keys of one length that differ in one segment only never share one.
Up to this segment the states are the same; after it they are not; and from then on the same bytes
lead different states to different ones.

## Main definitions

* `Murmur.AgreeOutside`: keys that differ in one segment at most.

## Main statements

* `Murmur.digest_left_injective`: the state before a key is told from the state after it.
* `Murmur.digest_inj`: so is a key that is known outside one segment.
* `Murmur.hash_keeps_bytes`: the hash and its steps.
-/

namespace RingScan.Murmur

open Function

/-- Two keys of one length that are the same outside one segment.  The segments of a key are its
blocks of sixteen bytes, counted from zero, and after them the bytes left over. -/
structure AgreeOutside (segment : ℕ) (key other : Bytes) : Prop where
  /-- The keys have one length. -/
  length_eq : key.length = other.length
  /-- The keys have the same bytes in all other segments. -/
  getElem?_eq : ∀ i, i / 16 ≠ segment → key[i]? = other[i]?

variable {segment : ℕ} {h : Lanes} {key other : Bytes}

/-! ### Blocks of keys that agree outside a segment -/

theorem AgreeOutside.drop_eq (hagree : AgreeOutside 0 key other) :
    key.drop 16 = other.drop 16 := by
  refine List.ext_getElem? fun i => ?_
  rw [List.getElem?_drop, List.getElem?_drop]
  exact hagree.getElem?_eq (16 + i) (by omega)

theorem AgreeOutside.take_eq (hagree : AgreeOutside (segment + 1) key other) :
    key.take 16 = other.take 16 := by
  refine List.ext_getElem? fun i => ?_
  rw [List.getElem?_take, List.getElem?_take]
  split_ifs with hi
  · exact hagree.getElem?_eq i (by omega)
  · rfl

theorem AgreeOutside.drop (hagree : AgreeOutside (segment + 1) key other) :
    AgreeOutside segment (key.drop 16) (other.drop 16) where
  length_eq := by rw [List.length_drop, List.length_drop, hagree.length_eq]
  getElem?_eq i hi := by
    rw [List.getElem?_drop, List.getElem?_drop]
    exact hagree.getElem?_eq (16 + i) (by omega)

/-- A byte is changed within one segment. -/
theorem agreeOutside_set (key : Bytes) (i : ℕ) (b : UInt8) :
    AgreeOutside (i / 16) key (key.set i b) where
  length_eq := List.length_set.symm
  getElem?_eq j hj := by
    have hne : i ≠ j := fun heq => hj (congrArg (· / 16) heq.symm)
    rw [List.getElem?_set_ne hne]

/-! ### States told apart -/

/-- The state before a key is told from the state after it. -/
theorem digest_left_injective (key : Bytes) : Injective (digest · key) := by
  rcases Nat.lt_or_ge key.length 16 with hlt | hle
  · simp only [digest_of_lt hlt]
    exact mixTail_left_injective key
  · simp only [digest_of_le hle]
    exact (digest_left_injective (key.drop 16)).comp (mixBytes_left_injective (key.take 16))
  termination_by key.length
  decreasing_by
    rw [List.length_drop]
    omega

/-- A key without a block is told from the states before and after it, if its length is known. -/
theorem eq_of_digest_eq_of_lt (hlt : key.length < 16) (hlength : key.length = other.length)
    (heq : digest h key = digest h other) : key = other := by
  rw [digest_of_lt hlt, digest_of_lt (hlength ▸ hlt)] at heq
  exact (mixTail_inj hlength (Nat.le_of_lt hlt)).1 heq

/-- A key that is known outside one segment is told from the states before and after it. -/
theorem digest_inj (hagree : AgreeOutside segment key other) :
    digest h key = digest h other ↔ key = other := by
  refine ⟨fun heq => ?_, congrArg (digest h)⟩
  -- The blocks before the segment are the same, and so are the states there; the bytes after it are
  -- the same, and so the states behind the segment are told from those at the end.
  induction segment generalizing h key other with
  | zero =>
    rcases Nat.lt_or_ge key.length 16 with hlt | hle
    · exact eq_of_digest_eq_of_lt hlt hagree.length_eq heq
    · have hother : 16 ≤ other.length := hagree.length_eq ▸ hle
      rw [digest_of_le hle, digest_of_le hother, hagree.drop_eq] at heq
      have htake : key.take 16 = other.take 16 :=
        (mixBytes_inj (List.length_take_of_le hle) (List.length_take_of_le hother)).1
          (digest_left_injective (other.drop 16) heq)
      exact take_drop_inj.1 ⟨htake, hagree.drop_eq⟩
  | succ segment ih =>
    rcases Nat.lt_or_ge key.length 16 with hlt | hle
    · exact eq_of_digest_eq_of_lt hlt hagree.length_eq heq
    · have hother : 16 ≤ other.length := hagree.length_eq ▸ hle
      rw [digest_of_le hle, digest_of_le hother, hagree.take_eq] at heq
      exact take_drop_inj.1 ⟨hagree.take_eq, ih hagree.drop heq⟩

theorem hash_inj (hagree : AgreeOutside segment key other) :
    hash key = hash other ↔ key = other := by
  rw [hash_eq_finish, hash_eq_finish, hagree.length_eq,
    (finish_bijective other.length).injective.eq_iff, digest_inj hagree]

/-! ### The hash and its steps -/

/-- **The hash loses no byte of a key.**  Keys of one length that differ, but in one segment only,
have different hashes.  So it is because each step can be told from its result: a block from the
states before and after it and the state before from the block and the state after, the bytes left
over from the words by which they change the state, and the state before the end from the result.
No byte is read that is not there, and no word is shifted by its whole length or more. -/
theorem hash_keeps_bytes :
    (∀ (segment : ℕ) (key other : Bytes), AgreeOutside segment key other → key ≠ other →
      hash key ≠ hash other) ∧
    (∀ (h : Lanes) (block other : Bytes), block.length = 16 → other.length = 16 →
      (mixBytes h block = mixBytes h other ↔ block = other)) ∧
    (∀ k₁ k₂ : UInt64, Injective fun h => mixBlock h k₁ k₂) ∧
    (∀ tail other : Bytes, tail.length = other.length → tail.length < 16 →
      (tailWords tail = tailWords other ↔ tail = other)) ∧
    (∀ length : ℕ, Bijective (finish length)) ∧
    ∀ key : Bytes, hash? key = some (hash key) :=
  ⟨fun _ _ _ hagree hne => mt (hash_inj hagree).1 hne,
    fun _ _ _ hblock hother => mixBytes_inj hblock hother,
    mixBlock_left_injective,
    fun _ _ hlength hlt => tailWords_inj hlength (Nat.le_of_lt hlt),
    finish_bijective,
    hash?_eq_some⟩

/-- A key of two blocks and five bytes left over: one byte is changed in the second block, or the
last byte of all, which then has a sign. -/
theorem hash_keeps_bytes_set :
    let key : Bytes := List.replicate 37 7
    (AgreeOutside 1 key (key.set 20 0x80) ∧ key ≠ key.set 20 0x80 ∧
      hash key ≠ hash (key.set 20 0x80)) ∧
    (AgreeOutside 2 key (key.set 36 0xff) ∧ key ≠ key.set 36 0xff ∧
      hash key ≠ hash (key.set 36 0xff)) ∧
    mixBytes ⟨0, 0⟩ (List.replicate 16 7) ≠ mixBytes ⟨0, 0⟩ (List.replicate 16 8) ∧
    tailWords [0xff, 0x80, 0x01] ≠ tailWords [0xff, 0x80, 0x00] := by
  intro key
  obtain ⟨hkeys, hblocks, -, htails, -, -⟩ := hash_keeps_bytes
  have hblock : AgreeOutside 1 key (key.set 20 0x80) := agreeOutside_set key 20 0x80
  have hblock_ne : key ≠ key.set 20 0x80 := by decide
  have htail : AgreeOutside 2 key (key.set 36 0xff) := agreeOutside_set key 36 0xff
  have htail_ne : key ≠ key.set 36 0xff := by decide
  refine ⟨⟨hblock, hblock_ne, hkeys 1 _ _ hblock hblock_ne⟩,
    ⟨htail, htail_ne, hkeys 2 _ _ htail htail_ne⟩, ?_, ?_⟩
  · exact mt (hblocks ⟨0, 0⟩ _ _ List.length_replicate List.length_replicate).1 (by decide)
  · exact mt (htails [0xff, 0x80, 0x01] [0xff, 0x80, 0x00] rfl (by decide)).1 (by decide)

end RingScan.Murmur
