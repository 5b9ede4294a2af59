import RingScan.Ring.Split

/-!
# The order of the ring

The order of tokens is linear: numbers by size, words of bytes as in a dictionary, all numbers
before all words.  Membership in a split is read off this order by comparing a token with the two
bounds; which comparisons are made is decided by the order of the bounds themselves.

## Main statements

* `Token.instIsLinearOrder`: the order of tokens is linear.
* `Split.isWrapping_iff`, `Split.not_isWrapping_iff`: a split wraps when its start does not come
  before its end.
* `Split.contains_iff_of_lt`, `Split.contains_of_eq`, `Split.contains_iff_of_gt`: membership in the
  three kinds of splits.
* `Split.between_iff`: when a split is an interval of the order.
-/

namespace RingScan

namespace Token

/-! ### Linearity -/

instance : Std.OrientedOrd Token where
  eq_swap := by
    intro a b
    cases a with
    | long m =>
      cases b with
      | long n => exact Std.OrientedOrd.eq_swap (a := m) (b := n)
      | bytes key => rfl
    | bytes key =>
      cases b with
      | long n => rfl
      | bytes other => exact Std.OrientedOrd.eq_swap (a := key) (b := other)

-- Two words of one sort are compared as such; otherwise the sorts decide, and of the eight
-- combinations four put bytes before a number.
instance : Std.TransOrd Token where
  isLE_trans := by
    intro a b c hab hbc
    cases a <;> cases b <;> cases c
    · exact Std.TransOrd.isLE_trans (α := Int64) hab hbc
    · rfl
    · exact absurd hbc Bool.false_ne_true
    · rfl
    · exact absurd hab Bool.false_ne_true
    · exact absurd hab Bool.false_ne_true
    · exact absurd hbc Bool.false_ne_true
    · exact Std.TransOrd.isLE_trans (α := Bytes) hab hbc

instance : Std.LawfulEqOrd Token where
  eq_of_compare := by
    intro a b h
    cases a with
    | long m =>
      cases b with
      | long n => exact congrArg long (Std.LawfulEqOrd.eq_of_compare h)
      | bytes key => exact absurd h (by simp [Ord.compare, compare])
    | bytes key =>
      cases b with
      | long n => exact absurd h (by simp [Ord.compare, compare])
      | bytes other => exact congrArg bytes (Std.LawfulEqOrd.eq_of_compare h)

instance : Std.LawfulOrderOrd Token where
  isLE_compare _ _ := Iff.rfl
  isGE_compare a b := by
    rw [Std.OrientedOrd.eq_swap (a := a) (b := b), Ordering.isGE_swap]
    exact Iff.rfl

/-- The order of tokens is linear. -/
instance instIsLinearOrder : Std.IsLinearOrder Token :=
  Std.IsLinearOrder.of_ord

instance : Std.LawfulOrderLT Token :=
  Std.LawfulOrderLT.of_ord Token fun _ _ => Iff.rfl

theorem compare_eq_lt_iff {a b : Token} : a.compare b = .lt ↔ a < b :=
  Iff.rfl

theorem compare_eq_eq_iff {a b : Token} : a.compare b = .eq ↔ a = b :=
  Std.LawfulEqOrd.compare_eq_iff_eq (a := a) (b := b)

theorem compare_eq_gt_iff {a b : Token} : a.compare b = .gt ↔ b < a := by
  change Ord.compare a b = .gt ↔ Ord.compare b a = .lt
  exact Std.OrientedCmp.gt_iff_lt

end Token

namespace Split

variable {split : Split} {token : Token}

/-! ### The three kinds of splits -/

theorem isWrapping_iff : split.isWrapping = true ↔ split.stop ≤ split.start := by
  simp only [isWrapping, decide_eq_true_eq]

theorem not_isWrapping_iff : split.isWrapping = false ↔ split.start < split.stop := by
  rw [← Bool.not_eq_true, isWrapping_iff, Std.not_le]

/-- A split whose start comes before its end holds the tokens between them. -/
theorem contains_iff_of_lt (h : split.start < split.stop) :
    split.contains token = true ↔ split.start < token ∧ token ≤ split.stop := by
  rw [contains, Token.compare_eq_lt_iff.2 h]
  simp only [Bool.and_eq_true, decide_eq_true_eq]

/-- A split with equal bounds holds every token. -/
theorem contains_of_eq (h : split.start = split.stop) : split.contains token = true := by
  rw [contains, Token.compare_eq_eq_iff.2 h]

/-- A split whose start comes after its end holds the tokens after the one and up to the other. -/
theorem contains_iff_of_gt (h : split.stop < split.start) :
    split.contains token = true ↔ split.start < token ∨ token ≤ split.stop := by
  rw [contains, Token.compare_eq_gt_iff.2 h]
  simp only [Bool.or_eq_true, decide_eq_true_eq]

/-- There are tokens after the start and up to the end if and only if the split does not wrap, and
then they are its tokens. -/
theorem between_iff (split : Split) (token : Token) :
    (split.start < token ∧ token ≤ split.stop) ↔
      split.isWrapping = false ∧ split.contains token = true := by
  constructor
  · rintro ⟨hstart, hstop⟩
    have hlt : split.start < split.stop := by grind
    exact ⟨not_isWrapping_iff.2 hlt, (contains_iff_of_lt hlt).2 ⟨hstart, hstop⟩⟩
  · rintro ⟨hwrap, hcontains⟩
    exact (contains_iff_of_lt (not_isWrapping_iff.1 hwrap)).1 hcontains

/-- A split that wraps holds its end. -/
theorem contains_stop_of_isWrapping {split : Split} (h : split.isWrapping = true) :
    split.contains split.stop = true := by
  by_cases heq : split.start = split.stop
  · exact contains_of_eq heq
  · have hle := isWrapping_iff.1 h
    exact (contains_iff_of_gt (by grind)).2 (Or.inr (by grind))

end Split

end RingScan
