import RingScan.Proofs.Failure.Traversal
import RingScan.Proofs.Ring.Text
import RingScan.Proofs.Row.Place

/-!
# Ends of splits

Whether a row stands at the end of a split is found by comparing texts of tokens.  In a sound
configuration, where the end of the split is a token that the partitioner gives to keys, this is the
comparison of the tokens.  In any other configuration a row may be found at the end though its token
is another one, but only where the digits of the number are those of the bytes.

## Main statements

* `KeyLayout.reachesEnd_eq_map`: the comparison is made for the rows that have a key.
* `KeyLayout.reachesEnd_iff`: which rows are found at the end of a split.
-/

namespace RingScan.KeyLayout

/-- The comparison is made for the rows that have a key, with the token of the key. -/
theorem reachesEnd_eq_map (keys : KeyLayout) (partitioner : Partitioner) (split : Split)
    (row : Cells) :
    keys.reachesEnd partitioner split row =
      (keys.keyOf row).map fun key =>
        decide ((partitioner.tokenOf key).text = split.stop.text) := by
  rw [reachesEnd, tokenOf_eq_map]
  cases keys.keyOf row <;> rfl

/-- The comparison fails just where the row has no key.  A row that has one is found at the end of a
split of the ring of its partitioner if and only if its token is the last one of the split.  Where
the last token is of the other sort, the row is found there if and only if its token is mistaken for
it. -/
theorem reachesEnd_iff (keys : KeyLayout) (partitioner : Partitioner) (split : Split)
    (row : Cells) :
    (∀ fault, keys.reachesEnd partitioner split row = .error fault ↔
      keys.keyOf row = .error fault) ∧
    ∀ key, keys.keyOf row = .ok key →
      keys.tokenOf partitioner row = .ok (partitioner.tokenOf key) ∧
      (partitioner.Produces split.stop →
        keys.reachesEnd partitioner split row =
          .ok (decide (partitioner.tokenOf key = split.stop))) ∧
      (¬ partitioner.Produces split.stop →
        ∃ reached, keys.reachesEnd partitioner split row = .ok reached ∧
          (reached = true ↔ (partitioner.tokenOf key).IsMistaken split.stop)) := by
  refine ⟨fun fault => by rw [reachesEnd_eq_map, Traversal.map_eq_error_iff], fun key hkey => ?_⟩
  have hproduces : partitioner.Produces (partitioner.tokenOf key) :=
    partitioner.produces_tokenOf key
  have hreached : keys.reachesEnd partitioner split row =
      .ok (decide ((partitioner.tokenOf key).text = split.stop.text)) := by
    rw [reachesEnd_eq_map, hkey, Except.map]
  refine ⟨tokenOf_of_keyOf hkey partitioner, fun hstop => ?_, fun hstop => ⟨_, hreached, ?_⟩⟩
  · rw [hreached, decide_eq_decide.2 (Partitioner.text_inj hproduces hstop)]
  · rw [decide_eq_true_iff, Partitioner.text_eq_iff_isMistaken hproduces hstop]

/-- The row of the byte `12` is found at the end of a split that ends with the number twelve, and
not at the end of one that ends with the byte `13`. -/
theorem reachesEnd_twelve :
    let keys : KeyLayout := ⟨⟨"k", .blob, false⟩, [], []⟩
    let row : Cells := .ofList [("k", some [0x12])]
    keys.reachesEnd .byteOrdered ⟨.bytes [], .long 12, []⟩ row = .ok true ∧
      keys.reachesEnd .byteOrdered ⟨.bytes [], .bytes [0x13], []⟩ row = .ok false := by
  intro keys row
  have hkey : keys.keyOf row = .ok [0x12] := by decide
  obtain ⟨-, hnumber⟩ := reachesEnd_iff keys .byteOrdered ⟨.bytes [], .long 12, []⟩ row
  obtain ⟨-, hbytes⟩ := reachesEnd_iff keys .byteOrdered ⟨.bytes [], .bytes [0x13], []⟩ row
  refine ⟨?_, (hbytes _ hkey).2.1 trivial⟩
  obtain ⟨reached, hreached, hiff⟩ := (hnumber _ hkey).2.2 id
  have hdigits : Text.digits (12 : Int64).toInt.toNat = ['1', '2'] := by
    rw [show (12 : Int64).toInt.toNat = 12 from rfl, Text.digits, Text.digits]
    rfl
  rw [hreached, hiff.2 ⟨12, [0x12], .inr ⟨rfl, rfl⟩, by decide, ?_⟩]
  rw [hdigits]
  decide

end RingScan.KeyLayout
