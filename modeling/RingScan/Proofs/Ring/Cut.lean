import RingScan.Proofs.Ring.Tiling
import RingScan.Ring.Partitioner

/-!
# Cutting splits

A split is cut at one of its tokens into the part up to the token and the part after it, and what
is left of the ring outside a split is a split as well.  Since a split may be an interval of the
order, or wrap around the ring, or be all of it, the parts may be of other kinds than the whole; yet
in every case each token of the split lies in one of its two parts and in no other.

Hashes never fall on the smallest number.  So the tokens of keys that are hashed lie in the split
from the smallest number to the largest, and a ring may also be tiled along this line, without a
split that wraps.

## Main definitions

* `Split.upTo`, `Split.after`: the two parts of a split that is cut at a token.
* `Split.opposite`: the rest of the ring.
* `Split.TilesLine`: splits are those between the neighbours of a list of boundaries.

## Main statements

* `Split.contains_opposite`: a token lies either in a split or in the rest of the ring.
* `Split.TilesLine.countP_contains`: each token between the first and the last boundary lies in
  exactly one split.
* `Partitioner.least_lt_tokenOf_hashed`: where the tokens of hashed keys lie.
* `Split.cut_without_gap`: a split and its parts.
-/

namespace RingScan

namespace Split

variable {split : Split} {middle token : Token}

/-! ### Parts and rests -/

/-- The part of a split up to a token. -/
def upTo (split : Split) (middle : Token) : Split :=
  { split with stop := middle }

/-- The part of a split after a token. -/
def after (split : Split) (middle : Token) : Split :=
  { split with start := middle }

/-- The rest of the ring, from the end of a split around to its start. -/
def opposite (split : Split) : Split :=
  { split with start := split.stop, stop := split.start }

/-- Membership in a split, whatever its kind.  In this form it is a statement of the linear order of
tokens alone, and so are the laws of parts and rests. -/
theorem contains_iff :
    split.contains token = true ↔
      split.start < split.stop ∧ split.start < token ∧ token ≤ split.stop ∨
        split.stop ≤ split.start ∧
          (split.start = split.stop ∨ split.start < token ∨ token ≤ split.stop) := by
  by_cases hlt : split.start < split.stop
  · rw [contains_iff_of_lt hlt]
    grind
  · by_cases heq : split.start = split.stop
    · exact iff_of_true (contains_of_eq heq) (by grind)
    · rw [contains_iff_of_gt (by grind)]
      grind

/-- A token lies either in a split or in the rest of the ring, unless the split is the whole
ring. -/
theorem contains_opposite (h : split.start ≠ split.stop) (token : Token) :
    split.opposite.contains token = !split.contains token := by
  rw [Bool.eq_not, ne_eq, Bool.eq_iff_iff, contains_iff, contains_iff, opposite]
  grind

/-- A token of a split lies in one of the two parts, and not in both. -/
theorem contains_upTo_xor_after (hmiddle : split.contains middle = true)
    (hne : middle ≠ split.stop) (token : Token) :
    (split.contains token = true ↔
      Xor ((split.upTo middle).contains token = true)
        ((split.after middle).contains token = true)) ∧
    ¬ ((split.upTo middle).contains token = true ∧
      (split.after middle).contains token = true) := by
  -- where the cut lies in a split that wraps decides which of the parts wraps as well
  rw [contains_iff] at hmiddle
  simp only [Xor, contains_iff, upTo, after]
  grind

/-! ### Splits along a line -/

/-- Splits are those between the neighbours of a list of boundaries; none leads from the last one
back to the first. -/
def TilesLine (boundaries : List Token) (splits : List Split) : Prop :=
  (splits.map fun split => (split.start, split.stop)) = boundaries.zip boundaries.tail

variable {first last : Token} {inner : List Token} {splits : List Split}

/-- The rest of the ring, from the last boundary back to the first, closes the line to a ring. -/
theorem TilesLine.tiles (h : TilesLine (first :: (inner ++ [last])) splits) :
    Tiles (first :: (inner ++ [last])) (splits ++ [opposite ⟨first, last, []⟩]) := by
  have hlength : (first :: inner).length = (inner ++ [last]).length := by
    rw [List.length_cons, List.length_append, List.length_singleton]
  have hline : (first :: (inner ++ [last])).zip (inner ++ [last]) =
      (first :: inner).zip (inner ++ [last]) := by
    have happend : ((first :: inner) ++ [last]).zip ((inner ++ [last]) ++ []) =
        (first :: inner).zip (inner ++ [last]) ++ [last].zip [] := List.zip_append hlength
    rwa [List.append_nil, List.zip_nil_right, List.append_nil] at happend
  have hring : (first :: (inner ++ [last])).zip ((inner ++ [last]) ++ [first]) =
      (first :: inner).zip (inner ++ [last]) ++ [last].zip [first] := List.zip_append hlength
  rw [TilesLine, List.tail_cons, hline] at h
  rw [Tiles, List.rotate_cons_succ, List.rotate_zero, hring, List.map_append, h]
  rfl

/-- The tokens after the first boundary and up to the last one lie in exactly one of the splits
along a line, and all others lie in none. -/
theorem TilesLine.countP_contains (h : TilesLine (first :: (inner ++ [last])) splits)
    (hsorted : (first :: (inner ++ [last])).Pairwise (· < ·)) (token : Token) :
    splits.countP (·.contains token) = if first < token ∧ token ≤ last then 1 else 0 := by
  let line : Split := ⟨first, last, []⟩
  have hlast : last ∈ inner ++ [last] := List.mem_append_right inner (List.mem_singleton_self last)
  have hlt : line.start < line.stop := (List.pairwise_cons.1 hsorted).1 last hlast
  have hne : line.start ≠ line.stop := by grind
  have hring := h.tiles.countP_contains (List.cons_ne_nil _ _) hsorted token
  have hinside : line.contains token = true ↔ first < token ∧ token ≤ last :=
    contains_iff_of_lt hlt
  rw [List.countP_append, List.countP_singleton, contains_opposite hne] at hring
  by_cases hin : line.contains token = true
  · rw [hin, Bool.not_true, if_neg Bool.false_ne_true] at hring
    rw [if_pos (hinside.1 hin)]
    exact hring
  · rw [Bool.eq_false_iff.2 hin, Bool.not_false, if_pos rfl] at hring
    rw [if_neg (mt hinside.2 hin)]
    exact Nat.succ.inj hring

end Split

/-! ### Hashed keys -/

theorem Token.long_lt_long_iff {m n : Int64} : long m < long n ↔ m < n := by
  change Ord.compare m n = .lt ↔ m < n
  exact Std.compare_eq_lt

theorem Token.long_le_long_iff {m n : Int64} : long m ≤ long n ↔ m ≤ n := by
  change (Ord.compare m n).isLE = true ↔ m ≤ n
  exact Std.isLE_compare

/-- The tokens of hashed keys come after the smallest number and are not above the largest. -/
theorem Partitioner.least_lt_tokenOf_hashed (key : Bytes) :
    hashed.least < hashed.tokenOf key ∧ hashed.tokenOf key ≤ .long Int64.maxValue := by
  rw [least, tokenOf, hashToken, Token.long_lt_long_iff, Token.long_le_long_iff,
    Int64.lt_iff_toInt_lt, Int64.le_iff_toInt_le]
  split_ifs with hmin
  · exact ⟨by decide, Int.le_refl _⟩
  · have hle := Int64.minValue_le_toInt (Murmur.hash key).first.toInt64
    have hne : (Murmur.hash key).first.toInt64.toInt ≠ Int64.minValue.toInt :=
      fun heq => hmin (Int64.toInt_inj.1 heq)
    exact ⟨by omega, Int64.toInt_le _⟩

/-- **A split is cut without gap or overlap.**  Whatever the kind of a split, a token of it other
than its end cuts it into two parts such that each token of the split lies in exactly one of them
and no other token in any; and unless it is the whole ring, the rest of the ring holds the tokens
that it does not hold.  The tokens of hashed keys come after the smallest number and are not above
the largest, so each of them lies in exactly one of the splits between boundaries that lead from the
one to the other. -/
theorem Split.cut_without_gap :
    (∀ (split : Split) (middle token : Token), split.contains middle = true →
      middle ≠ split.stop →
      (split.contains token = true ↔ Xor ((split.upTo middle).contains token = true)
        ((split.after middle).contains token = true)) ∧
      ¬ ((split.upTo middle).contains token = true ∧
        (split.after middle).contains token = true)) ∧
    (∀ (split : Split) (token : Token), split.start ≠ split.stop →
      (split.opposite.contains token = true ↔ ¬ split.contains token = true)) ∧
    ∀ key : Bytes,
      (⟨Partitioner.hashed.least, .long Int64.maxValue, []⟩ : Split).contains
        (Partitioner.hashed.tokenOf key) = true ∧
      ∀ (inner : List Token) (splits : List Split),
        TilesLine (Partitioner.hashed.least :: (inner ++ [.long Int64.maxValue])) splits →
        (Partitioner.hashed.least :: (inner ++ [.long Int64.maxValue])).Pairwise (· < ·) →
        splits.countP (·.contains (Partitioner.hashed.tokenOf key)) = 1 := by
  refine ⟨fun split middle token hmiddle hne => contains_upTo_xor_after hmiddle hne token,
    fun split token hne => ?_, fun key => ?_⟩
  · rw [contains_opposite hne, Bool.not_eq_true', Bool.not_eq_true]
  · have hline : Partitioner.hashed.least < .long Int64.maxValue := by decide
    have hkey := Partitioner.least_lt_tokenOf_hashed key
    refine ⟨(contains_iff_of_lt hline).2 hkey, fun inner splits htiles hsorted => ?_⟩
    rw [htiles.countP_contains hsorted, if_pos hkey]

/-- A split that wraps and the whole ring, both cut after their start, and a line of two splits. -/
theorem Split.cut_without_gap_wrapping :
    let wrapping : Split := ⟨.long 100, .long (-100), []⟩
    let whole : Split := ⟨.long 7, .long 7, []⟩
    let zero : Token := .long 0
    let largest : Token := .long Int64.maxValue
    (∀ token, wrapping.contains token = true ↔ Xor
      ((wrapping.upTo largest).contains token = true)
      ((wrapping.after largest).contains token = true)) ∧
    (∀ token, ¬ ((whole.upTo zero).contains token = true ∧
      (whole.after zero).contains token = true)) ∧
    wrapping.opposite.contains zero = true ∧
    [(⟨Partitioner.hashed.least, zero, []⟩ : Split), ⟨zero, largest, []⟩].countP
      (·.contains (Partitioner.hashed.tokenOf [0, 4])) = 1 := by
  intro wrapping whole zero largest
  obtain ⟨hcut, hopposite, hkeys⟩ := cut_without_gap
  have hsorted : (Partitioner.hashed.least :: ([zero] ++ [largest])).Pairwise (· < ·) := by decide
  refine ⟨fun token => ?_, fun token => ?_, ?_, ?_⟩
  · exact (hcut wrapping largest token (by decide) (by decide)).1
  · exact (hcut whole zero token (by decide) (by decide)).2
  · exact (hopposite wrapping zero (by decide)).2 (by decide)
  · exact (hkeys [0, 4]).2 [zero] _ rfl hsorted

end RingScan
