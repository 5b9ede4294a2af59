import Mathlib.Data.List.Basic
import RingScan.Proofs.Failure.Traversal
import RingScan.Text.Utf8

/-!
# Texts as bytes and back

The bytes of a text are read back as the text, and bytes are read as a text only if they are its
bytes.  So bytes are well-formed exactly if they are the bytes of some characters.

## Main statements

* `Text.Utf8.decode_encode`: the bytes of a text are read back.
* `Text.Utf8.decode_eq_ok_iff`: which bytes are read as a text.
-/

namespace RingScan.Text.Utf8

/-! ### Bytes of a sequence -/

theorem within_iff {b lo hi : UInt8} :
    within b lo hi = true ↔ lo.toNat ≤ b.toNat ∧ b.toNat ≤ hi.toNat := by
  simp only [within, Bool.and_eq_true, decide_eq_true_eq, UInt8.le_iff_toNat_le]

theorem isContinuation_iff {b : UInt8} :
    isContinuation b = true ↔ 128 ≤ b.toNat ∧ b.toNat ≤ 191 :=
  within_iff

theorem isSecondOfThree_iff {b c : UInt8} :
    isSecondOfThree b c = true ↔ (128 ≤ c.toNat ∧ c.toNat ≤ 191) ∧
      (b.toNat = 224 → 160 ≤ c.toNat) ∧ (b.toNat = 237 → c.toNat ≤ 159) := by
  simp only [isSecondOfThree, isContinuation, ← UInt8.toNat_inj, UInt8.toNat_ofNat]
  split_ifs <;> rw [within_iff] <;> simp only [UInt8.toNat_ofNat] <;> omega

theorem isSecondOfFour_iff {b c : UInt8} :
    isSecondOfFour b c = true ↔ (128 ≤ c.toNat ∧ c.toNat ≤ 191) ∧
      (b.toNat = 240 → 144 ≤ c.toNat) ∧ (b.toNat = 244 → c.toNat ≤ 143) := by
  simp only [isSecondOfFour, isContinuation, ← UInt8.toNat_inj, UInt8.toNat_ofNat]
  split_ifs <;> rw [within_iff] <;> simp only [UInt8.toNat_ofNat] <;> omega

/-! ### Sequences -/

section Sequences

variable {a b c d : UInt8}

theorem toNat_ofNat {n : ℕ} (h : n.isValidChar) : (Char.ofNat n).toNat = n := by
  rw [Char.ofNat, dif_pos h]
  rfl

/-- A byte that is known by its number. -/
theorem ofNat_eq_iff {n : ℕ} : UInt8.ofNat n = a ↔ n % 256 = a.toNat := by
  rw [← UInt8.toNat_inj, UInt8.toNat_ofNat']

theorem utf8EncodeChar_one (ha : a.toNat < 128) :
    String.utf8EncodeChar (Char.ofNat a.toNat) = [a] := by
  have hn : (Char.ofNat a.toNat).toNat = a.toNat := toNat_ofNat (.inl (by omega))
  unfold String.utf8EncodeChar
  simp only [Char.toNat_val, hn]
  rw [if_pos (by omega), UInt8.ofNat_toNat]

theorem utf8EncodeChar_two (ha : within a 0xC2 0xDF = true) (hb : isContinuation b = true) :
    String.utf8EncodeChar (Char.ofNat (a.toNat % 32 * 64 + low b)) = [a, b] := by
  rw [within_iff] at ha
  rw [isContinuation_iff] at hb
  simp only [UInt8.toNat_ofNat] at ha
  have hlow : low b = b.toNat % 64 := rfl
  have hn := toNat_ofNat (.inl (show a.toNat % 32 * 64 + low b < 55296 by omega))
  unfold String.utf8EncodeChar
  simp only [Char.toNat_val, hn]
  rw [if_neg (by omega), if_pos (by omega), List.cons.injEq, List.cons.injEq, ofNat_eq_iff,
    ofNat_eq_iff]
  exact ⟨by omega, by omega, rfl⟩

theorem utf8EncodeChar_three (ha : within a 0xE0 0xEF = true) (hb : isSecondOfThree a b = true)
    (hc : isContinuation c = true) :
    String.utf8EncodeChar (Char.ofNat (a.toNat % 16 * 4096 + low b * 64 + low c)) = [a, b, c] := by
  rw [within_iff] at ha
  rw [isSecondOfThree_iff] at hb
  rw [isContinuation_iff] at hc
  simp only [UInt8.toNat_ofNat] at ha
  have hlow : low b = b.toNat % 64 ∧ low c = c.toNat % 64 := ⟨rfl, rfl⟩
  have hn : (Char.ofNat (a.toNat % 16 * 4096 + low b * 64 + low c)).toNat =
      a.toNat % 16 * 4096 + low b * 64 + low c := by
    rcases Nat.lt_or_ge a.toNat 238 with h | h
    · exact toNat_ofNat (.inl (by omega))
    · exact toNat_ofNat (.inr ⟨by omega, by omega⟩)
  unfold String.utf8EncodeChar
  simp only [Char.toNat_val, hn]
  rw [if_neg (by omega), if_neg (by omega), if_pos (by omega)]
  simp only [List.cons.injEq, ofNat_eq_iff]
  exact ⟨by omega, by omega, by omega, trivial⟩

theorem utf8EncodeChar_four (ha : within a 0xF0 0xF4 = true) (hb : isSecondOfFour a b = true)
    (hc : isContinuation c = true) (hd : isContinuation d = true) :
    String.utf8EncodeChar
      (Char.ofNat (a.toNat % 8 * 262144 + low b * 4096 + low c * 64 + low d)) = [a, b, c, d] := by
  rw [within_iff] at ha
  rw [isSecondOfFour_iff] at hb
  rw [isContinuation_iff] at hc hd
  simp only [UInt8.toNat_ofNat] at ha
  have hlow : low b = b.toNat % 64 ∧ low c = c.toNat % 64 ∧ low d = d.toNat % 64 :=
    ⟨rfl, rfl, rfl⟩
  have hn := toNat_ofNat (.inr
    ⟨show 57343 < a.toNat % 8 * 262144 + low b * 4096 + low c * 64 + low d by omega, by omega⟩)
  unfold String.utf8EncodeChar
  simp only [Char.toNat_val, hn]
  rw [if_neg (by omega), if_neg (by omega), if_neg (by omega)]
  simp only [List.cons.injEq, ofNat_eq_iff]
  exact ⟨by omega, by omega, by omega, by omega, trivial⟩

/-! ### Decoding -/

variable (start : ℕ) (rest : Bytes)

theorem decodeFrom_one (ha : a.toNat < 128) :
    decodeFrom start (a :: rest) =
      (decodeFrom (start + 1) rest).map (Char.ofNat a.toNat :: ·) := by
  rw [decodeFrom.eq_def]
  exact if_pos (UInt8.lt_iff_toNat_lt.2 ha)

theorem decodeFrom_two (ha : within a 0xC2 0xDF = true) (hb : isContinuation b = true) :
    decodeFrom start (a :: b :: rest) =
      (decodeFrom (start + 2) rest).map (Char.ofNat (a.toNat % 32 * 64 + low b) :: ·) := by
  have hlarge : ¬ a < 0x80 := by
    rw [UInt8.lt_iff_toNat_lt]
    simp only [within_iff, UInt8.toNat_ofNat] at ha ⊢
    omega
  rw [decodeFrom.eq_def]
  simp only [hlarge, ha, hb, if_true, if_false]

theorem decodeFrom_three (ha : within a 0xE0 0xEF = true) (hb : isSecondOfThree a b = true)
    (hc : isContinuation c = true) :
    decodeFrom start (a :: b :: c :: rest) = (decodeFrom (start + 3) rest).map
      (Char.ofNat (a.toNat % 16 * 4096 + low b * 64 + low c) :: ·) := by
  have hlarge : ¬ a < 0x80 ∧ ¬ within a 0xC2 0xDF = true := by
    rw [UInt8.lt_iff_toNat_lt]
    simp only [within_iff, UInt8.toNat_ofNat] at ha ⊢
    omega
  rw [decodeFrom.eq_def]
  simp only [hlarge, ha, hb, hc, Bool.false_eq_true, if_true, if_false]

theorem decodeFrom_four (ha : within a 0xF0 0xF4 = true) (hb : isSecondOfFour a b = true)
    (hc : isContinuation c = true) (hd : isContinuation d = true) :
    decodeFrom start (a :: b :: c :: d :: rest) = (decodeFrom (start + 4) rest).map
      (Char.ofNat (a.toNat % 8 * 262144 + low b * 4096 + low c * 64 + low d) :: ·) := by
  have hlarge : ¬ a < 0x80 ∧ ¬ within a 0xC2 0xDF = true ∧ ¬ within a 0xE0 0xEF = true := by
    rw [UInt8.lt_iff_toNat_lt]
    simp only [within_iff, UInt8.toNat_ofNat] at ha ⊢
    omega
  rw [decodeFrom.eq_def]
  simp only [hlarge, ha, hb, hc, hd, Bool.false_eq_true, if_true,
    if_false]

end Sequences

/-- The bytes of a character are read as this character. -/
theorem decodeFrom_utf8EncodeChar (start : ℕ) (c : Char) (rest : Bytes) :
    ∃ next, decodeFrom start (String.utf8EncodeChar c ++ rest) =
      (decodeFrom next rest).map (c :: ·) := by
  have hvalid : c.toNat < 55296 ∨ 57343 < c.toNat ∧ c.toNat < 1114112 := c.valid
  have hback {n : ℕ} (h : n = c.toNat) : Char.ofNat n = c := h ▸ Char.ofNat_toNat c
  have hbyte {n : ℕ} (h : n < 256) : (UInt8.ofNat n).toNat = n := UInt8.toNat_ofNat_of_lt' h
  have hlow (b : UInt8) : low b = b.toNat % 64 := rfl
  unfold String.utf8EncodeChar
  simp only [Char.toNat_val]
  generalize hn : c.toNat = n at hvalid hback
  split_ifs with hone htwo hthree
  · have ha := hbyte (show n < 256 by omega)
    have hstep := decodeFrom_one start rest (show (UInt8.ofNat n).toNat < 128 by omega)
    rw [hback ha] at hstep
    exact ⟨_, hstep⟩
  · have ha := hbyte (show n / 64 % 32 + 192 < 256 by omega)
    have hb := hbyte (show n % 64 + 128 < 256 by omega)
    generalize UInt8.ofNat (n / 64 % 32 + 192) = a at ha
    generalize UInt8.ofNat (n % 64 + 128) = b at hb
    have hstep := decodeFrom_two start rest
      (within_iff.2 (by simp only [UInt8.toNat_ofNat]; omega) : within a 0xC2 0xDF = true)
      (isContinuation_iff.2 (by omega) : isContinuation b = true)
    rw [hback (by rw [hlow]; omega)] at hstep
    exact ⟨_, hstep⟩
  · have ha := hbyte (show n / 4096 % 16 + 224 < 256 by omega)
    have hb := hbyte (show n / 64 % 64 + 128 < 256 by omega)
    have hc := hbyte (show n % 64 + 128 < 256 by omega)
    generalize UInt8.ofNat (n / 4096 % 16 + 224) = a at ha
    generalize UInt8.ofNat (n / 64 % 64 + 128) = b at hb
    generalize UInt8.ofNat (n % 64 + 128) = c at hc
    have hstep := decodeFrom_three start rest
      (within_iff.2 (by simp only [UInt8.toNat_ofNat]; omega) : within a 0xE0 0xEF = true)
      (isSecondOfThree_iff.2 (by omega) : isSecondOfThree a b = true)
      (isContinuation_iff.2 (by omega) : isContinuation c = true)
    rw [hback (by rw [hlow, hlow]; omega)] at hstep
    exact ⟨_, hstep⟩
  · have ha := hbyte (show n / 262144 % 8 + 240 < 256 by omega)
    have hb := hbyte (show n / 4096 % 64 + 128 < 256 by omega)
    have hc := hbyte (show n / 64 % 64 + 128 < 256 by omega)
    have hd := hbyte (show n % 64 + 128 < 256 by omega)
    generalize UInt8.ofNat (n / 262144 % 8 + 240) = a at ha
    generalize UInt8.ofNat (n / 4096 % 64 + 128) = b at hb
    generalize UInt8.ofNat (n / 64 % 64 + 128) = c at hc
    generalize UInt8.ofNat (n % 64 + 128) = d at hd
    have hstep := decodeFrom_four start rest
      (within_iff.2 (by simp only [UInt8.toNat_ofNat]; omega) : within a 0xF0 0xF4 = true)
      (isSecondOfFour_iff.2 (by omega) : isSecondOfFour a b = true)
      (isContinuation_iff.2 (by omega) : isContinuation c = true)
      (isContinuation_iff.2 (by omega) : isContinuation d = true)
    rw [hback (by rw [hlow, hlow, hlow]; omega)] at hstep
    exact ⟨_, hstep⟩

/-- The bytes of a character are below 128 if its number is. -/
theorem forall_mem_utf8EncodeChar_iff (c : Char) :
    (∀ b ∈ String.utf8EncodeChar c, b.toNat < 128) ↔ c.toNat < 128 := by
  have hbyte (n : ℕ) : (UInt8.ofNat n).toNat = n % 256 := UInt8.toNat_ofNat'
  unfold String.utf8EncodeChar
  simp only [Char.toNat_val]
  split_ifs <;> simp only [List.forall_mem_cons, hbyte, List.not_mem_nil, IsEmpty.forall_iff,
    implies_true, and_true] <;> omega

/-- The bytes of a text are below 128 if the numbers of its characters are. -/
theorem forall_mem_encode_iff (cs : List Char) :
    (∀ b ∈ encode cs, b.toNat < 128) ↔ ∀ c ∈ cs, c.toNat < 128 := by
  simp only [encode, List.forall_mem_flatMap, forall_mem_utf8EncodeChar_iff]

/-- The bytes of a text are read as the text. -/
theorem decode_encode (cs : List Char) : decode (encode cs) = .ok cs := by
  have hall (start : ℕ) : decodeFrom start (encode cs) = .ok cs := by
    induction cs generalizing start with
    | nil => rfl
    | cons c cs ih =>
      obtain ⟨next, hnext⟩ := decodeFrom_utf8EncodeChar start c (encode cs)
      rw [encode, List.flatMap_cons]
      refine hnext.trans ?_
      rw [ih]
      rfl
  exact hall 0

/-- Bytes that are read as a text are its bytes. -/
theorem encode_of_decodeFrom {start : ℕ} {bs : Bytes} {cs : List Char}
    (h : decodeFrom start bs = .ok cs) : encode cs = bs := by
  induction start, bs using decodeFrom.induct generalizing cs with
  | case1 =>
    cases h
    rfl
  | case2 start a rest ha ih =>
    have ha := UInt8.lt_iff_toNat_lt.1 ha
    rw [decodeFrom_one start rest ha] at h
    obtain ⟨cs, hrest, rfl⟩ := Traversal.map_eq_ok_iff.1 h
    rw [encode, List.flatMap_cons, utf8EncodeChar_one ha]
    exact congrArg (a :: ·) (ih hrest)
  | case4 start a _ ha b rest hb ih =>
    rw [decodeFrom_two start rest ha hb] at h
    obtain ⟨cs, hrest, rfl⟩ := Traversal.map_eq_ok_iff.1 h
    rw [encode, List.flatMap_cons, utf8EncodeChar_two ha hb]
    exact congrArg (a :: b :: ·) (ih hrest)
  | case8 start a _ _ ha b hb c rest hc ih =>
    rw [decodeFrom_three start rest ha hb hc] at h
    obtain ⟨cs, hrest, rfl⟩ := Traversal.map_eq_ok_iff.1 h
    rw [encode, List.flatMap_cons, utf8EncodeChar_three ha hb hc]
    exact congrArg (a :: b :: c :: ·) (ih hrest)
  | case14 start a _ _ _ ha b hb c hc d rest hd ih =>
    rw [decodeFrom_four start rest ha hb hc hd] at h
    obtain ⟨cs, hrest, rfl⟩ := Traversal.map_eq_ok_iff.1 h
    rw [encode, List.flatMap_cons, utf8EncodeChar_four ha hb hc hd]
    exact congrArg (a :: b :: c :: d :: ·) (ih hrest)
  | _ =>
    unfold decodeFrom at h
    simp only [*] at h
    cases h

/-- Which bytes are read as a text. -/
theorem decode_eq_ok_iff {bs : Bytes} {cs : List Char} : decode bs = .ok cs ↔ encode cs = bs :=
  ⟨encode_of_decodeFrom, fun h => h ▸ decode_encode cs⟩

end RingScan.Text.Utf8
