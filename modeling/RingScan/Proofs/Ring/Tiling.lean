import Mathlib.Data.List.Rotate
import RingScan.Proofs.Ring.Order

/-!
# Splits around the ring

Boundaries in increasing order cut the ring into the splits between neighbours and one that leads
from the last boundary over the smallest token back to the first.  A single boundary leaves one
split, which is the whole ring.  In either case each token lies in one of the splits and in no
other, so rows that are handed to the splits by their tokens are neither lost nor handed out twice.

## Main definitions

* `Split.Tiles`: splits are those between the boundaries of a list.

## Main statements

* `Split.Tiles.countP_contains`: each token lies in exactly one split.
* `Split.Tiles.flatMap_filter_perm`: the rows of all splits are all rows.
-/

namespace RingScan.Split

/-- A token lies in the slice between two bounds. -/
def between (bounds : Token × Token) (token : Token) : Bool :=
  contains ⟨bounds.1, bounds.2, []⟩ token

/-- Splits are those between the neighbours of a list of boundaries, and the one that leads from its
last boundary back to the first. -/
def Tiles (boundaries : List Token) (splits : List Split) : Prop :=
  (splits.map fun split => (split.start, split.stop)) = boundaries.zip (boundaries.rotate 1)

/-- From a boundary on, the splits hold the tokens after it and those up to the first boundary. -/
private theorem countP_between_zip (first : Token) (rest : List Token) :
    ∀ last : Token, first ≤ last → (last :: rest).Pairwise (· < ·) → ∀ token : Token,
      ((last :: rest).zip (rest ++ [first])).countP (between · token) =
        if last < token ∨ token ≤ first then 1 else 0 := by
  induction rest with
  | nil =>
    intro last hfirst _ token
    have hclosing : between (last, first) token = true ↔ last < token ∨ token ≤ first := by
      by_cases heq : last = first
      · subst heq
        exact iff_of_true (contains_of_eq rfl) (by grind)
      · exact contains_iff_of_gt (by grind)
    simp only [List.nil_append, List.zip_cons_cons, List.zip_nil_left, List.countP_singleton,
      hclosing]
  | cons next rest ih =>
    intro last hfirst hsorted token
    obtain ⟨hlast, hrest⟩ := List.pairwise_cons.1 hsorted
    have hnext : last < next := hlast next List.mem_cons_self
    have hhead : between (last, next) token = true ↔ last < token ∧ token ≤ next :=
      contains_iff_of_lt hnext
    have htail := ih next (by grind) hrest token
    rw [List.cons_append, List.zip_cons_cons, List.countP_cons, htail]
    simp only [hhead]
    split_ifs <;> grind

/-- Each token lies in exactly one of the splits around the ring. -/
theorem Tiles.countP_contains {boundaries : List Token} {splits : List Split}
    (h : Tiles boundaries splits) (hne : boundaries ≠ []) (hsorted : boundaries.Pairwise (· < ·))
    (token : Token) : splits.countP (·.contains token) = 1 := by
  obtain ⟨first, rest, rfl⟩ := List.exists_cons_of_ne_nil hne
  have hbounds : splits.countP (·.contains token) =
      (splits.map fun split => (split.start, split.stop)).countP (between · token) := by
    rw [List.countP_map]
    rfl
  rw [hbounds, h, List.rotate_cons_succ, List.rotate_zero,
    countP_between_zip first rest first (by grind) hsorted token]
  exact if_pos (by grind)

/-- A row occurs in the rows of several splits as often as in all rows, once for each split that it
lies in. -/
private theorem count_flatMap_filter {α : Type} [DecidableEq α] (token : α → Token) (rows : List α)
    (row : α) (splits : List Split) :
    (splits.flatMap fun split => rows.filter fun row => split.contains (token row)).count row =
      splits.countP (·.contains (token row)) * rows.count row := by
  induction splits with
  | nil => rw [List.flatMap_nil, List.count_nil, List.countP_nil, Nat.zero_mul]
  | cons split splits ih =>
    let inside (row : α) : Bool := split.contains (token row)
    rw [List.flatMap_cons, List.count_append, ih, List.countP_cons, Nat.add_mul, Nat.add_comm]
    by_cases hin : inside row = true
    · have hcount : (rows.filter inside).count row = rows.count row := List.count_filter hin
      rw [if_pos hin, hcount, Nat.one_mul]
    · have hcount : (rows.filter inside).count row = 0 :=
        List.count_eq_zero.2 fun hmem => hin (List.mem_filter.1 hmem).2
      rw [if_neg hin, hcount, Nat.zero_mul]

/-- The rows of all splits are all rows. -/
theorem Tiles.flatMap_filter_perm {α : Type} {boundaries : List Token} {splits : List Split}
    (h : Tiles boundaries splits) (hne : boundaries ≠ []) (hsorted : boundaries.Pairwise (· < ·))
    (token : α → Token) (rows : List α) :
    (splits.flatMap fun split => rows.filter fun row => split.contains (token row)).Perm rows := by
  classical
  rw [List.perm_iff_count]
  intro row
  rw [count_flatMap_filter, h.countP_contains hne hsorted, Nat.one_mul]

end RingScan.Split
