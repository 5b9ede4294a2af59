import Mathlib.Algebra.BigOperators.Group.List.Basic
import RingScan.Key.Shape
import RingScan.Proofs.Cell.BigEndian
import RingScan.Proofs.Failure.Traversal

/-!
# Keys in frames

Each frame of a composite key begins with the length of its cell, so a reader knows where the cell
ends without looking at its bytes, which may well look like a length or an end themselves.  Reading
a key frame by frame therefore finds its cells again, and two lists of cells never have the same
key.  The length is written in two bytes, and a cell whose length needs more has no frame at all.

## Main definitions

* `Key.readFrame`: the cell of the first frame and the bytes after it.
* `Key.readFrames`: the cells of all frames, if there is nothing else.

## Main statements

* `Key.readFrame_append`, `Key.exists_frame_of_readFrame`: what is read as a frame is the frame of a
  cell.
* `Key.frames_eq_ok_iff`: the cells of a key are those that are read from it.
* `Key.exists_frames_iff`: the cells that have a key.
* `Key.frames_decodable`: a key determines its cells.
-/

namespace RingScan

namespace Key

variable {cell first rest key : Bytes} {cells : List Bytes} {fault : EncodingFault}

/-! ### One frame -/

/-- The cell of the first frame and the bytes after it: a length in two bytes, as many bytes of the
cell, and a zero byte. -/
def readFrame : Bytes → Option (Bytes × Bytes)
  | high :: low :: bytes =>
    let length := Cell.ofBigEndian [high, low]
    match bytes.drop length with
    | [] => none
    | terminator :: rest => if terminator = 0 then some (bytes.take length, rest) else none
  | _ => none

theorem frame_eq_ok_iff :
    frame cell = .ok first ↔
      cell.length ≤ longest ∧ Cell.bigEndian 2 cell.length ++ (cell ++ [0]) = first := by
  unfold frame
  split_ifs with h
  · rw [Except.ok.injEq, and_iff_right h]
  · exact iff_of_false nofun fun hnot => h hnot.1

theorem exists_frame_iff : (∃ first, frame cell = .ok first) ↔ cell.length ≤ longest := by
  simp only [frame_eq_ok_iff, exists_and_left, exists_eq', and_true]

theorem length_frame (h : frame cell = .ok first) : first.length = cell.length + 3 := by
  obtain ⟨-, rfl⟩ := frame_eq_ok_iff.1 h
  simp only [List.length_append, Cell.length_bigEndian, List.length_singleton]
  omega

/-- The frame of a cell is read as the cell, whatever follows it. -/
theorem readFrame_append (h : frame cell = .ok first) (rest : Bytes) :
    readFrame (first ++ rest) = some (cell, rest) := by
  obtain ⟨hlength, rfl⟩ := frame_eq_ok_iff.1 h
  obtain ⟨high, low, hbytes⟩ := List.length_eq_two.1 (Cell.length_bigEndian 2 cell.length)
  have hread : Cell.ofBigEndian [high, low] = cell.length := by
    rw [← hbytes]
    exact Cell.ofBigEndian_bigEndian (Nat.lt_succ_of_le hlength)
  have hrest : [high, low] ++ (cell ++ [0]) ++ rest = high :: low :: (cell ++ 0 :: rest) := by
    simp only [List.append_assoc, List.cons_append, List.nil_append]
  rw [hbytes, hrest, readFrame]
  simp only [hread, List.drop_left, List.take_left, if_true]

/-- What is read as a frame is the frame of a cell. -/
theorem exists_frame_of_readFrame {bytes : Bytes} (h : readFrame bytes = some (cell, rest)) :
    ∃ first, frame cell = .ok first ∧ bytes = first ++ rest := by
  match bytes with
  | [] => cases h
  | [_] => cases h
  | high :: low :: bytes =>
    simp only [readFrame] at h
    split at h
    · cases h
    · rename_i terminator after hdrop
      split_ifs at h with hzero
      obtain ⟨rfl, rfl⟩ := Prod.mk.inj (Option.some.inj h)
      subst hzero
      have hlt : Cell.ofBigEndian [high, low] < bytes.length := by
        by_contra hle
        rw [List.drop_eq_nil_of_le (Nat.le_of_not_lt hle)] at hdrop
        cases hdrop
      have hlength : (bytes.take (Cell.ofBigEndian [high, low])).length =
          Cell.ofBigEndian [high, low] := List.length_take_of_le hlt.le
      have hbound : Cell.ofBigEndian [high, low] < 256 ^ 2 := Cell.ofBigEndian_lt [high, low]
      have hprefix : Cell.bigEndian 2 (Cell.ofBigEndian [high, low]) = [high, low] :=
        Cell.bigEndian_ofBigEndian [high, low]
      refine ⟨_, frame_eq_ok_iff.2 ⟨hlength.trans_le (Nat.le_of_lt_succ hbound), rfl⟩, ?_⟩
      rw [hlength, hprefix, List.append_assoc, List.append_assoc, List.singleton_append, ← hdrop,
        List.take_append_drop]
      rfl

theorem length_lt_of_readFrame {bytes : Bytes} (h : readFrame bytes = some (cell, rest)) :
    rest.length < bytes.length := by
  obtain ⟨first, hframe, rfl⟩ := exists_frame_of_readFrame h
  rw [List.length_append, length_frame hframe]
  omega

/-! ### All frames -/

/-- The cells of all frames of a key; there must be nothing else in it. -/
def readFrames (bytes : Bytes) : Option (List Bytes) :=
  match _h : readFrame bytes with
  | some (cell, rest) => (readFrames rest).map (cell :: ·)
  | none => if bytes = [] then some [] else none
  termination_by bytes.length
  decreasing_by exact length_lt_of_readFrame _h

theorem readFrames_append (h : frame cell = .ok first) (rest : Bytes) :
    readFrames (first ++ rest) = (readFrames rest).map (cell :: ·) := by
  have hread := readFrame_append h rest
  rw [readFrames]
  split
  · rename_i other after hother
    obtain ⟨rfl, rfl⟩ := Prod.mk.inj (Option.some.inj (hother.symm.trans hread))
    rfl
  · rename_i hnone
    cases hnone.symm.trans hread

theorem readFrames_of_none {bytes : Bytes} (h : readFrame bytes = none) :
    readFrames bytes = if bytes = [] then some [] else none := by
  rw [readFrames]
  split
  · rename_i hsome
    cases h.symm.trans hsome
  · rfl

theorem frames_cons_eq_ok_iff :
    frames (cell :: cells) = .ok key ↔
      ∃ first, frame cell = .ok first ∧ ∃ rest, frames cells = .ok rest ∧ first ++ rest = key := by
  simp only [frames, Traversal.bind_eq_ok_iff, Except.ok.injEq]

/-- The cells of a key are those that are read from it. -/
theorem frames_eq_ok_iff : frames cells = .ok key ↔ readFrames key = some cells := by
  constructor
  · intro h
    induction cells generalizing key with
    | nil =>
      cases h
      rw [readFrames]
      rfl
    | cons cell cells ih =>
      obtain ⟨first, hframe, rest, hrest, rfl⟩ := frames_cons_eq_ok_iff.1 h
      rw [readFrames_append hframe, ih hrest]
      rfl
  · intro h
    induction key using readFrames.induct generalizing cells with
    | case1 bytes cell rest hread ih =>
      obtain ⟨first, hframe, rfl⟩ := exists_frame_of_readFrame hread
      rw [readFrames_append hframe] at h
      obtain ⟨tail, htail, rfl⟩ := Option.map_eq_some_iff.1 h
      exact frames_cons_eq_ok_iff.2 ⟨first, hframe, rest, ih htail, rfl⟩
    | case2 hread =>
      rw [readFrames_of_none hread, if_pos rfl] at h
      cases h
      rfl
    | case3 bytes hread hne =>
      rw [readFrames_of_none hread, if_neg hne] at h
      cases h

theorem frames_eq_mapM (cells : List Bytes) :
    frames cells = (cells.mapM frame).map List.flatten := by
  induction cells with
  | nil => rfl
  | cons cell cells ih =>
    rw [frames, ih]
    cases hframe : frame cell with
    | error fault =>
      rw [Traversal.mapM_cons_of_error hframe]
      rfl
    | ok first =>
      rw [Traversal.mapM_cons_of_ok hframe]
      cases cells.mapM frame <;> rfl

/-- Cells have a key if and only if each of them has a frame. -/
theorem exists_frames_iff :
    (∃ key, frames cells = .ok key) ↔ ∀ cell ∈ cells, cell.length ≤ longest := by
  simp only [← exists_frame_iff, ← Traversal.exists_mapM_eq_ok_iff, frames_eq_mapM,
    Traversal.map_eq_ok_iff]
  constructor
  · rintro ⟨-, framed, hframed, -⟩
    exact ⟨framed, hframed⟩
  · rintro ⟨framed, hframed⟩
    exact ⟨framed.flatten, framed, hframed, rfl⟩

theorem length_frames (h : frames cells = .ok key) :
    key.length = (cells.map fun cell => cell.length + 3).sum := by
  induction cells generalizing key with
  | nil =>
    cases h
    rfl
  | cons cell cells ih =>
    obtain ⟨first, hframe, rest, hrest, rfl⟩ := frames_cons_eq_ok_iff.1 h
    rw [List.length_append, length_frame hframe, ih hrest, List.map_cons, List.sum_cons]

/-- Two lists of cells with the same key are the same. -/
theorem frames_injective {others : List Bytes} (h : frames cells = .ok key)
    (hothers : frames others = .ok key) : cells = others :=
  Option.some.inj ((frames_eq_ok_iff.1 h).symm.trans (frames_eq_ok_iff.1 hothers))

end Key

/-! ### Keys of one column and of several -/

namespace KeyShape

variable {shape : KeyShape} {cells others : List Bytes} {key : Bytes}

theorem length_of_join (h : shape.join cells = .ok key) : cells.length = shape.count := by
  by_contra hcount
  rw [join, if_pos hcount] at h
  cases h

theorem join_of_length (h : cells.length = shape.count) :
    shape.join cells = if shape.isComposite then Key.frames cells else .ok cells.flatten := by
  rw [join, if_neg (not_not_intro h)]

theorem count_of_not_isComposite (h : shape.isComposite = false) : shape.count = 1 := by
  obtain ⟨first, others⟩ := shape
  cases others with
  | nil => rfl
  | cons second others => cases h

/-- Cells, one for each column, have a key if and only if each of them fits its frame; the cell of a
single column is not framed. -/
theorem exists_join_iff (h : cells.length = shape.count) :
    (∃ key, shape.join cells = .ok key) ↔
      (shape.isComposite = true → ∀ cell ∈ cells, cell.length ≤ Key.longest) := by
  rw [join_of_length h]
  split_ifs with hcomposite
  · rw [Key.exists_frames_iff]
    exact ⟨fun h _ => h, fun h => h hcomposite⟩
  · exact iff_of_true ⟨_, rfl⟩ fun htrue => absurd htrue hcomposite

/-- Two lists of cells with the same key are the same. -/
theorem join_injective (h : shape.join cells = .ok key) (hothers : shape.join others = .ok key) :
    cells = others := by
  have hlength := length_of_join h
  have hlengthOthers := length_of_join hothers
  rw [join_of_length hlength] at h
  rw [join_of_length hlengthOthers] at hothers
  split_ifs at h hothers with hcomposite
  · exact Key.frames_injective h hothers
  · have hcount := count_of_not_isComposite (Bool.eq_false_iff.2 hcomposite)
    obtain ⟨cell, rfl⟩ := List.length_eq_one_iff.1 (hlength.trans hcount)
    obtain ⟨other, rfl⟩ := List.length_eq_one_iff.1 (hlengthOthers.trans hcount)
    rw [List.flatten_singleton, Except.ok.injEq] at h hothers
    rw [h, hothers]

end KeyShape

/-- **A key determines its cells.**  The key of cells in frames is read frame by frame, with nothing
left over, as just these cells, and nothing else is read as cells; it has three bytes more for each
cell than the cells have.  There is no key if and only if some cell is longer than a frame holds.
So two lists of cells, however many cells they have, never have the same key, neither in frames nor
as the key of the columns of one table. -/
theorem Key.frames_decodable :
    (∀ cells key, frames cells = .ok key ↔ readFrames key = some cells) ∧
    (∀ cells key, frames cells = .ok key →
      key.length = (cells.map fun cell => cell.length + 3).sum) ∧
    (∀ cells, (∃ fault, frames cells = .error fault) ↔ ∃ cell ∈ cells, longest < cell.length) ∧
    (∀ cells others key, frames cells = .ok key → frames others = .ok key → cells = others) ∧
    ∀ (shape : KeyShape) cells others key, shape.join cells = .ok key →
      shape.join others = .ok key → cells = others := by
  refine ⟨fun cells key => frames_eq_ok_iff, fun cells key => length_frames, fun cells => ?_,
    fun cells others key => frames_injective, fun shape cells others key => KeyShape.join_injective⟩
  simp only [Traversal.exists_error_iff, exists_frames_iff, not_forall, Nat.not_le, exists_prop]

/-- A cell that looks like a frame, before one that is empty, and a cell that is too long. -/
theorem Key.frames_decodable_framed_cell :
    let cells : List Bytes := [[0, 1, 7, 0], []]
    let key : Bytes := [0, 4, 0, 1, 7, 0, 0, 0, 0, 0]
    frames cells = .ok key ∧ readFrames key = some cells ∧
      key.length = (cells.map fun cell => cell.length + 3).sum ∧
      (∃ fault, frames [[], List.replicate 65536 7] = .error fault) ∧
      (∀ others, frames others = .ok key → others = cells) ∧
      ∀ others, (⟨.blob, [.text]⟩ : KeyShape).join others = .ok key → others = cells := by
  intro cells key
  have hkey : frames cells = .ok key := rfl
  have hjoin : (⟨.blob, [.text]⟩ : KeyShape).join cells = .ok key := rfl
  have hlong : ∃ cell ∈ ([[], List.replicate 65536 7] : List Bytes), longest < cell.length :=
    ⟨_, List.mem_cons_of_mem _ List.mem_cons_self,
      (Nat.lt_succ_self longest).trans_eq List.length_replicate.symm⟩
  obtain ⟨hread, hlength, hfault, hframes, hcells⟩ := frames_decodable
  exact ⟨hkey, (hread cells key).1 hkey, hlength cells key hkey, (hfault _).2 hlong,
    fun others h => hframes others cells key h hkey,
    fun others h => hcells _ others cells key h hjoin⟩

end RingScan
