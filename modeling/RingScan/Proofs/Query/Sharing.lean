import RingScan.Proofs.Query.Candidates
import RingScan.Proofs.Ring.Tiling

/-!
# Candidates shared out among splits

The candidates of a lookup belong to the whole ring, and each split answers for those whose key lies
in it.  Whether there is an answer at all does not depend on the split: all candidates are given
their keys, also those that lie elsewhere, so a candidate without a key is a fault in every split,
and the same one.  If all of them have a key, splits that tile the ring share the candidates out
among them.  Each one is kept by one split, as often as it is named, and a split to which none falls
has nothing to ask for.

## Main definitions

* `Lookup.Refused`: why there is no answer in any split.
* `Lookup.placed`: the candidates that are kept for a split, with their positions.

## Main statements

* `Lookup.retained_eq_error_iff`: a lookup fails for reasons that do not depend on the split.
* `Lookup.shared_by_tiles`: the candidates are shared out once.
-/

namespace RingScan.Lookup

variable {lookup : Lookup} {shape : KeyShape} {partitioner : Partitioner} {split : Split}

/-- Why there is no answer in any split: the partition key has one column, or the first candidate
without a key has none for the given fault. -/
inductive Refused (lookup : Lookup) (shape : KeyShape) : Failure → Prop where
  | scalar (h : shape.isComposite = false) :
    Refused lookup shape (.configuration (.lookupOnScalarKey lookup.equalsField lookup.inField))
  | candidate {fault : EncodingFault} (hcomposite : shape.isComposite = true)
    (h : Traversal.FailsFirst (lookup.keyOf shape) lookup.inValues fault) :
    Refused lookup shape (.encoding fault)

theorem retained_eq_error_iff {failure : Failure} :
    lookup.retained shape partitioner split = .error failure ↔ lookup.Refused shape failure := by
  rw [retained]
  constructor
  · intro h
    split_ifs at h with hcomposite
    · obtain ⟨fault, hkeep, rfl⟩ := Traversal.mapError_eq_error_iff.1 h
      exact .candidate hcomposite (keep_eq_error_iff.1 hkeep)
    · cases h
      exact .scalar (Bool.eq_false_iff.2 hcomposite)
  · rintro (hscalar | ⟨hcomposite, hfirst⟩)
    · exact if_neg (Bool.eq_false_iff.1 hscalar)
    · rw [if_pos hcomposite, keep_eq_error_iff.2 hfirst]
      rfl

/-- The candidates whose key lies in a split, each with its position in the lookup. -/
def placed (lookup : Lookup) (shape : KeyShape) (partitioner : Partitioner) (split : Split) :
    List (Value × ℕ) :=
  lookup.inValues.zipIdx.filter fun entry => lookup.isInside shape partitioner split entry.1

theorem map_placed (lookup : Lookup) (shape : KeyShape) (partitioner : Partitioner)
    (split : Split) :
    (lookup.placed shape partitioner split).map (·.1) =
      lookup.inValues.filter (lookup.isInside shape partitioner split) := by
  have hvalues : lookup.inValues.zipIdx.map (·.1) = lookup.inValues := List.zipIdx_map_fst 0 _
  conv_rhs => rw [← hvalues, List.filter_map]
  rfl

/-- **The candidates of a lookup are shared out once among splits that tile the ring.**  Either
there is no answer, in all splits for the same reason: the partition key has one column only, or
some candidate has no key, and then it is the first of these that counts, wherever the others lie.
Or there is an answer in all splits.  Each split then keeps the candidates whose key lies in it, in
their order and as often as they are named, and has a statement for them unless there are none; and
each position of the list of candidates is kept by exactly one of the splits. -/
theorem shared_by_tiles {boundaries : List Token} {splits : List Split}
    (htiles : Split.Tiles boundaries splits) (hne : boundaries ≠ [])
    (hsorted : boundaries.Pairwise (· < ·)) (lookup : Lookup) (shape : KeyShape)
    (partitioner : Partitioner) :
    (∃ failure, lookup.Refused shape failure ∧ ∀ split ∈ splits,
      lookup.retained shape partitioner split = .error failure ∧
      ∀ template : Template,
        template.statement? (some lookup) shape partitioner split = .error failure) ∨
    ((shape.isComposite = true ∧
        ∀ candidate ∈ lookup.inValues, ∃ key, lookup.keyOf shape candidate = .ok key) ∧
      (∀ split ∈ splits, ∃ kept, kept = (lookup.placed shape partitioner split).map (·.1) ∧
        lookup.retained shape partitioner split = .ok kept ∧
        ∀ template : Template, template.statement? (some lookup) shape partitioner split =
          .ok (if kept = [] then none else some (template.lookupStatement lookup kept))) ∧
      ∀ entry ∈ lookup.inValues.zipIdx,
        splits.countP (fun split => entry ∈ lookup.placed shape partitioner split) = 1) := by
  by_cases hanswer : shape.isComposite = true ∧
      ∀ candidate ∈ lookup.inValues, ∃ key, lookup.keyOf shape candidate = .ok key
  · right
    refine ⟨hanswer, fun split _ => ⟨_, rfl, ?_⟩, fun entry hentry => ?_⟩
    · have hkept : lookup.retained shape partitioner split =
          .ok ((lookup.placed shape partitioner split).map (·.1)) :=
        retained_eq_ok_iff.2 ⟨hanswer.1, hanswer.2, map_placed lookup shape partitioner split⟩
      exact ⟨hkept, fun template => by rw [Template.statement?_eq_map, hkept]; rfl⟩
    · obtain ⟨key, hkey⟩ := hanswer.2 entry.1 (List.fst_mem_of_mem_zipIdx hentry)
      rw [← htiles.countP_contains hne hsorted (partitioner.tokenOf key)]
      refine List.countP_congr fun split _ => ?_
      rw [decide_eq_true_eq, placed, List.mem_filter, and_iff_right hentry, isInside_of_keyOf hkey]
  · left
    have hnone (split : Split) : ¬ ∃ kept, lookup.retained shape partitioner split = .ok kept := by
      rintro ⟨kept, hkept⟩
      obtain ⟨hcomposite, hall, -⟩ := retained_eq_ok_iff.1 hkept
      exact hanswer ⟨hcomposite, hall⟩
    obtain ⟨failure, hfailure⟩ :=
      Traversal.exists_error_iff.2 (hnone ⟨partitioner.least, partitioner.least, []⟩)
    have hrefused := retained_eq_error_iff.1 hfailure
    refine ⟨failure, hrefused, fun split _ => ?_⟩
    have hsame : lookup.retained shape partitioner split = .error failure :=
      retained_eq_error_iff.2 hrefused
    exact ⟨hsame, fun template => by rw [Template.statement?_eq_map, hsame]; rfl⟩

/-- Two splits around the ring and two candidates, one of them named twice; and the same with a
candidate that has no key. -/
theorem shared_by_tiles_two_splits :
    let first : Token := .bytes [0, 1, 1, 0, 0, 1, 4]
    let second : Token := .bytes [0, 1, 1, 0, 0, 1, 6]
    let splits : List Split := [⟨first, second, []⟩, ⟨second, first, []⟩]
    let shape : KeyShape := ⟨.blob, [.blob]⟩
    let lookup : Lookup := ⟨"tenant", .blob [1], "bucket", [.blob [5], .blob [7], .blob [5]]⟩
    let mistyped : Lookup := { lookup with inValues := [.blob [5], .text "5", .boolean true] }
    (splits.map (lookup.retained shape .byteOrdered) =
        [.ok [.blob [5], .blob [5]], .ok [.blob [7]]] ∧
      ∀ entry ∈ lookup.inValues.zipIdx,
        splits.countP (fun split => entry ∈ lookup.placed shape .byteOrdered split) = 1) ∧
    ∃ failure, ∀ split ∈ splits, mistyped.retained shape .byteOrdered split = .error failure := by
  intro first second splits shape lookup mistyped
  have htiles : Split.Tiles [first, second] splits := rfl
  have hsorted : [first, second].Pairwise (· < ·) := by decide
  have hkept : splits.map (lookup.retained shape .byteOrdered) =
      [.ok [.blob [5], .blob [5]], .ok [.blob [7]]] := by decide
  have hmistyped : ¬ ∃ key, mistyped.keyOf shape (.text "5") = .ok key := nofun
  refine ⟨⟨hkept, ?_⟩, ?_⟩
  · rcases shared_by_tiles htiles (List.cons_ne_nil _ _) hsorted lookup shape .byteOrdered with
      ⟨failure, -, hall⟩ | ⟨-, -, hcount⟩
    · cases (hall _ List.mem_cons_self).1.symm.trans (List.cons.inj hkept).1
    · exact hcount
  · rcases shared_by_tiles htiles (List.cons_ne_nil _ _) hsorted mistyped shape .byteOrdered with
      ⟨failure, -, hall⟩ | ⟨⟨-, hkeys⟩, -⟩
    · exact ⟨failure, fun split hmem => (hall split hmem).1⟩
    · exact absurd (hkeys _ (List.mem_cons_of_mem _ List.mem_cons_self)) hmistyped

end RingScan.Lookup
