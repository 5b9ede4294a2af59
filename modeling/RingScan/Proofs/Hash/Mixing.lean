import RingScan.Proofs.Hash.Packing

/-!
# Steps of the hash

Each step of the hash can be told from its result: a block, or the bytes left over, when the state
before is known, and the state before when the bytes are known.  At the end the state is mixed by a
bijection that depends on the length of the key alone.

## Main definitions

* `Murmur.mixBytes`: the state after the sixteen bytes of a block.
* `Murmur.tailWords`: the two words by which bytes left over change the state.
* `Murmur.digest`: the state after all bytes of a key, before it is finished.

## Main statements

* `Murmur.mixBlock_left_injective`, `Murmur.mixBytes_inj`: a block.
* `Murmur.tailWords_inj`: the bytes left over.
* `Murmur.finish_bijective`: the end.
* `Murmur.digest_of_lt`, `Murmur.digest_of_le`: a key, block by block.
-/

namespace RingScan.Murmur

open Function

variable {h g : Lanes} {key block tail other : Bytes}

/-! ### Lanes -/

/-- The state with its two words changed, each by itself. -/
def Lanes.map (f₁ f₂ : UInt64 → UInt64) (h : Lanes) : Lanes :=
  ⟨f₁ h.first, f₂ h.second⟩

theorem Lanes.map_bijective {f₁ f₂ : UInt64 → UInt64} (h₁ : Bijective f₁) (h₂ : Bijective f₂) :
    Bijective (Lanes.map f₁ f₂) := by
  obtain ⟨back₁, hleft₁, hright₁⟩ := bijective_iff_has_inverse.1 h₁
  obtain ⟨back₂, hleft₂, hright₂⟩ := bijective_iff_has_inverse.1 h₂
  exact bijective_iff_has_inverse.2 ⟨Lanes.map back₁ back₂,
    fun h => congrArg₂ Lanes.mk (hleft₁ h.first) (hleft₂ h.second),
    fun h => congrArg₂ Lanes.mk (hright₁ h.first) (hright₂ h.second)⟩

/-- The state before the lanes were added. -/
def subtractLanes (h : Lanes) : Lanes :=
  let second := h.second - h.first
  ⟨h.first - second, second⟩

theorem addLanes_bijective : Bijective addLanes := by
  refine bijective_iff_has_inverse.2 ⟨subtractLanes, fun h => ?_, fun h => ?_⟩
  · rw [subtractLanes, addLanes, UInt64.add_sub_cancel, UInt64.add_sub_cancel]
  · rw [addLanes, subtractLanes, UInt64.sub_add_cancel, UInt64.sub_add_cancel]

/-- At the end the state is mixed without loss. -/
theorem finish_bijective (length : ℕ) : Bijective (finish length) :=
  have hlength : Bijective (· ^^^ UInt64.ofNat length) := xor_bijective _
  have hmix : Bijective (Lanes.map avalanche avalanche) :=
    Lanes.map_bijective avalanche_bijective avalanche_bijective
  addLanes_bijective.comp
    (hmix.comp (addLanes_bijective.comp (Lanes.map_bijective hlength hlength)))

/-! ### Blocks -/

private theorem mul_five_add_inj {x y c : UInt64} : x * 5 + c = y * 5 + c ↔ x = y := by
  have hfive : Bijective fun x : UInt64 => x * 5 :=
    mul_bijective (show 5 * 0xcccccccccccccccd = 1 by decide)
  rw [UInt64.add_left_inj]
  exact hfive.injective.eq_iff

/-- When two blocks lead two states to the same one. -/
theorem mixBlock_eq_iff {k₁ k₂ l₁ l₂ : UInt64} : mixBlock h k₁ k₂ = mixBlock g l₁ l₂ ↔
    rotate (h.first ^^^ mix₁ k₁) 27 + h.second = rotate (g.first ^^^ mix₁ l₁) 27 + g.second ∧
      h.second ^^^ mix₂ k₂ = g.second ^^^ mix₂ l₂ := by
  rw [mixBlock, mixBlock, Lanes.mk.injEq, mul_five_add_inj, mul_five_add_inj]
  refine and_congr_right fun hfirst => ?_
  rw [hfirst, UInt64.add_left_inj, rotate_inj (by decide) (by decide)]

/-- The state before a block is told from the block and the state after it. -/
theorem mixBlock_left_injective (k₁ k₂ : UInt64) : Injective (mixBlock · k₁ k₂) := by
  intro h g heq
  obtain ⟨hfirst, hsecond⟩ := mixBlock_eq_iff.1 heq
  rw [UInt64.xor_left_inj] at hsecond
  rw [hsecond, UInt64.add_left_inj, rotate_inj (by decide) (by decide), UInt64.xor_left_inj]
    at hfirst
  exact congrArg₂ Lanes.mk hfirst hsecond

/-- A block is told from the states before and after it. -/
theorem mixBlock_right_inj {k₁ k₂ l₁ l₂ : UInt64} :
    mixBlock h k₁ k₂ = mixBlock h l₁ l₂ ↔ k₁ = l₁ ∧ k₂ = l₂ := by
  rw [mixBlock_eq_iff, UInt64.add_left_inj, rotate_inj (by decide) (by decide),
    UInt64.xor_right_inj, UInt64.xor_right_inj, mix₁_inj, mix₂_inj]

theorem take_drop_inj {n : ℕ} :
    key.take n = other.take n ∧ key.drop n = other.drop n ↔ key = other := by
  refine ⟨fun ⟨htake, hdrop⟩ => ?_, fun heq => heq ▸ ⟨rfl, rfl⟩⟩
  rw [← List.take_append_drop n key, htake, hdrop, List.take_append_drop]

/-- The state after the bytes of a block. -/
def mixBytes (h : Lanes) (block : Bytes) : Lanes :=
  mixBlock h (word (block.take 8)) (word (block.drop 8))

theorem mixBytes_left_injective (block : Bytes) : Injective (mixBytes · block) :=
  mixBlock_left_injective _ _

/-- The bytes of a block are told from the states before and after it. -/
theorem mixBytes_inj (hblock : block.length = 16) (hother : other.length = 16) :
    mixBytes h block = mixBytes h other ↔ block = other := by
  rw [mixBytes, mixBytes, mixBlock_right_inj, ← take_drop_inj (n := 8)]
  refine and_congr (word_inj ?_ ?_) (word_inj ?_ ?_) <;>
    simp only [List.length_take, List.length_drop, hblock, hother] <;> decide

/-! ### Bytes left over -/

/-- The words by which bytes left over change the two words of the state. -/
def tailWords (tail : Bytes) : UInt64 × UInt64 :=
  (mix₁ (signedWord (tail.take 8)), mix₂ (signedWord (tail.drop 8)))

/-- So many bytes left over are told from the words by which they change the state. -/
theorem tailWords_inj (hlength : tail.length = other.length) (hle : tail.length ≤ 16) :
    tailWords tail = tailWords other ↔ tail = other := by
  rw [tailWords, tailWords, Prod.mk.injEq, mix₁_inj, mix₂_inj, ← take_drop_inj (n := 8)]
  refine and_congr (signedWord_inj ?_ ?_) (signedWord_inj ?_ ?_) <;>
    simp only [List.length_take, List.length_drop] <;> omega

theorem mixTail_left_injective (tail : Bytes) : Injective (mixTail · tail) :=
  (Lanes.map_bijective (xor_bijective (tailWords tail).1)
    (xor_bijective (tailWords tail).2)).injective

theorem mixTail_inj (hlength : tail.length = other.length) (hle : tail.length ≤ 16) :
    mixTail h tail = mixTail h other ↔ tail = other := by
  rw [← tailWords_inj hlength hle, tailWords, tailWords, Prod.mk.injEq, mixTail, mixTail,
    Lanes.mk.injEq, UInt64.xor_right_inj, UInt64.xor_right_inj]

/-! ### Keys -/

theorem absorb_of_lt (hlt : key.length < 16) : absorb h key = (h, key) := by
  have hdrop : key.drop 15 = [] := List.drop_eq_nil_of_le (by omega)
  rw [absorb]
  split
  case h_1 => rfl
  case h_2 b rest hcons => exact absurd (hcons.symm.trans hdrop) (List.cons_ne_nil b rest)

theorem absorb_of_le (hle : 16 ≤ key.length) :
    absorb h key = absorb (mixBytes h (key.take 16)) (key.drop 16) := by
  have hwords : mixBytes h (key.take 16) =
      mixBlock h (word (key.take 8)) (word ((key.drop 8).take 8)) := by
    rw [mixBytes, List.take_take, List.drop_take]
    rfl
  rw [hwords, absorb]
  split
  case h_1 hnil =>
    have hlength := List.drop_eq_nil_iff.1 hnil
    omega
  case h_2 b rest hcons =>
    have hrest : key.drop 16 = rest := by
      rw [← List.tail_drop, hcons, List.tail_cons]
    rw [hrest]

/-- Less bytes are left over than a block has. -/
theorem length_absorb_lt (h : Lanes) (key : Bytes) : (absorb h key).2.length < 16 := by
  rcases Nat.lt_or_ge key.length 16 with hlt | hle
  · rw [absorb_of_lt hlt]
    exact hlt
  · rw [absorb_of_le hle]
    exact length_absorb_lt _ (key.drop 16)
  termination_by key.length
  decreasing_by
    rw [List.length_drop]
    omega

/-- The state after all bytes of a key. -/
def digest (h : Lanes) (key : Bytes) : Lanes :=
  mixTail (absorb h key).1 (absorb h key).2

theorem hash_eq_finish (key : Bytes) : hash key = finish key.length (digest ⟨0, 0⟩ key) :=
  rfl

theorem digest_of_lt (hlt : key.length < 16) : digest h key = mixTail h key := by
  rw [digest, absorb_of_lt hlt]

theorem digest_of_le (hle : 16 ≤ key.length) :
    digest h key = digest (mixBytes h (key.take 16)) (key.drop 16) := by
  rw [digest, absorb_of_le hle, digest]

end RingScan.Murmur
