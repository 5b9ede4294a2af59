import RingScan.Proofs.Text.Hex
import RingScan.Uuid

/-!
# Identifiers as bytes and back

The text of sixteen bytes is read as these bytes: its digits stand for them, it has no blanks, and
its hyphens are passed over.  Of the texts of sixteen bytes it is the one that is written.

## Main statements

* `Uuid.read_write`: the text of sixteen bytes is read as these.
-/

namespace RingScan

namespace Uuid

/-- Without its hyphens a text is the digits of its bytes. -/
theorem filter_write (bytes : Bytes) :
    (write bytes).filter (· != '-') = Text.Hex.encode bytes := by
  have hdigits {cs : List Char} (h : cs ⊆ Text.Hex.encode bytes) : cs.filter (· != '-') = cs := by
    refine List.filter_eq_self.2 fun c hc => ?_
    obtain ⟨n, hn, rfl⟩ := Text.Hex.exists_digit_of_mem (h hc)
    exact bne_iff_ne.2 (Text.Hex.digit_plain hn).1
  have hpart (n count : ℕ) : ((Text.Hex.encode bytes).drop n).take count ⊆ Text.Hex.encode bytes :=
    fun _ hc => List.mem_of_mem_drop (List.mem_of_mem_take hc)
  have hhyphen (cs : List Char) : ('-' :: cs).filter (· != '-') = cs.filter (· != '-') := rfl
  have hjoin (n count : ℕ) : ((Text.Hex.encode bytes).drop n).take count ++
      (Text.Hex.encode bytes).drop (n + count) = (Text.Hex.encode bytes).drop n := by
    rw [← List.drop_drop, List.take_append_drop]
  rw [write]
  simp only [List.filter_append, hhyphen]
  rw [hdigits (List.take_subset _ _), hdigits (hpart _ _), hdigits (hpart _ _), hdigits (hpart _ _),
    hdigits (List.drop_subset _ _), hjoin 16 4, hjoin 12 4, hjoin 8 4, List.take_append_drop]

theorem isBlank_of_mem_write {bytes : Bytes} {c : Char} (h : c ∈ write bytes) :
    Text.isBlank c = false := by
  by_cases hc : c = '-'
  · subst hc
    decide
  · have hmem : c ∈ (write bytes).filter (· != '-') := List.mem_filter.2 ⟨h, bne_iff_ne.2 hc⟩
    rw [filter_write] at hmem
    obtain ⟨n, hn, rfl⟩ := Text.Hex.exists_digit_of_mem hmem
    exact (Text.Hex.digit_plain hn).2

/-- The text of sixteen bytes is read as these. -/
theorem read_write {bytes : Bytes} (h : bytes.length = 16) :
    read (String.ofList (write bytes)) = .ok bytes := by
  rw [read, String.toList_ofList, Text.trimChars_eq_self fun c => isBlank_of_mem_write,
    filter_write, Text.Hex.decode_encode]
  simp only [h, if_true]

/-- What is read are sixteen bytes. -/
theorem length_of_read {s : String} {bytes : Bytes} (h : read s = .ok bytes) :
    bytes.length = 16 := by
  unfold read at h
  split at h
  · cases h
  · split at h <;> cases h
    assumption

end Uuid

end RingScan
