import RingScan.Proofs.Text.Numeral
import RingScan.Text.Blank

/-!
# Capital and small letters

Only the twenty-six ASCII capitals have another small form, so what is the same for a capital and
its small letter is the same for every character and its small form.  Blanks, digits and punctuation
are told alike before and after, and a text may be put into small letters before or after it is
trimmed, cut or read as a number.

## Main statements

* `Text.apply_toLower`: the letters are the only characters to look at.
* `Text.trimChars_map_toLower`: trimming and small letters commute.
* `Text.readNatural_map_toLower`: letters make no number.
-/

namespace RingScan.Text

/-! ### Characters -/

theorem toLower_cases (c : Char) :
    c.toLower = c ∨ ∃ k < 26, c = Char.ofNat (65 + k) ∧ c.toLower = Char.ofNat (97 + k) := by
  have hletters : ∀ k < 26, (Char.ofNat (65 + k)).toLower = Char.ofNat (97 + k) := by decide
  by_cases h : c.val ≥ 'A'.val ∧ c.val ≤ 'Z'.val
  · obtain ⟨hlow, hhigh⟩ := h
    have hlow : 65 ≤ c.toNat := UInt32.le_iff_toNat_le.1 hlow
    have hhigh : c.toNat ≤ 90 := UInt32.le_iff_toNat_le.1 hhigh
    have hc : c = Char.ofNat (65 + (c.toNat - 65)) := by
      rw [Nat.add_sub_of_le hlow, Char.ofNat_toNat]
    refine .inr ⟨c.toNat - 65, by omega, hc, ?_⟩
    exact (congrArg Char.toLower hc).trans (hletters _ (by omega))
  · exact .inl (dif_neg h)

/-- What is the same for capitals and their small letters is the same for every character and its
small form. -/
theorem apply_toLower {α : Type} (f : Char → α)
    (h : ∀ k < 26, f (Char.ofNat (97 + k)) = f (Char.ofNat (65 + k))) (c : Char) :
    f c.toLower = f c := by
  rcases toLower_cases c with hc | ⟨k, hk, hc, hlower⟩
  · rw [hc]
  · rw [hlower, hc, h k hk]

theorem isBlank_toLower (c : Char) : isBlank c.toLower = isBlank c :=
  apply_toLower isBlank (by decide) c

theorem isDigit_toLower (c : Char) : c.toLower.isDigit = c.isDigit :=
  apply_toLower Char.isDigit (by decide) c

theorem digitValue?_toLower (c : Char) : digitValue? c.toLower = digitValue? c :=
  apply_toLower digitValue? (by decide) c

theorem Hex.value?_toLower (c : Char) : Hex.value? c.toLower = Hex.value? c :=
  apply_toLower Hex.value? (by decide) c

/-- A digit has no other small form. -/
theorem toLower_of_isDigit {c : Char} (h : c.isDigit = true) : c.toLower = c := by
  rcases toLower_cases c with hc | ⟨k, hk, rfl, -⟩
  · exact hc
  · have hletters : ∀ k < 26, (Char.ofNat (65 + k)).isDigit = false := by decide
    exact absurd (h.symm.trans (hletters k hk)) (by decide)

/-- What is no letter is the small form of nothing else. -/
theorem toLower_eq_iff {c d : Char} (h : d.isAlpha = false) : c.toLower = d ↔ c = d := by
  rcases toLower_cases c with hc | ⟨k, hk, hc, hlower⟩
  · rw [hc]
  · have hletters : ∀ k < 26, (Char.ofNat (97 + k)).isAlpha = true ∧
        (Char.ofNat (65 + k)).isAlpha = true := by decide
    obtain ⟨hsmall, hcapital⟩ := hletters k hk
    refine iff_of_false ?_ ?_
    · rintro rfl
      rw [hlower, hsmall] at h
      cases h
    · rintro rfl
      rw [hc, hcapital] at h
      cases h

theorem mem_map_toLower_iff {d : Char} (h : d.isAlpha = false) {cs : List Char} :
    d ∈ cs.map Char.toLower ↔ d ∈ cs := by
  rw [List.mem_map]
  constructor
  · rintro ⟨c, hc, hlower⟩
    exact (toLower_eq_iff h).1 hlower ▸ hc
  · exact fun hd => ⟨d, hd, (toLower_eq_iff h).2 rfl⟩

/-! ### Texts -/

section Spans

variable {p : Char → Bool} (hp : ∀ c, p c.toLower = p c) (cs : List Char)

include hp

theorem takeWhile_map_toLower :
    (cs.map Char.toLower).takeWhile p = (cs.takeWhile p).map Char.toLower := by
  rw [List.takeWhile_map, show p ∘ Char.toLower = p from funext hp]

theorem dropWhile_map_toLower :
    (cs.map Char.toLower).dropWhile p = (cs.dropWhile p).map Char.toLower := by
  rw [List.dropWhile_map, show p ∘ Char.toLower = p from funext hp]

end Spans

theorem trimChars_map_toLower (cs : List Char) :
    trimChars (cs.map Char.toLower) = (trimChars cs).map Char.toLower := by
  rw [trimChars, dropWhile_map_toLower isBlank_toLower, ← List.map_reverse,
    dropWhile_map_toLower isBlank_toLower, ← List.map_reverse, trimChars]

theorem map_toLower_of_isDigit {cs : List Char} (h : ∀ c ∈ cs, c.isDigit = true) :
    cs.map Char.toLower = cs :=
  (List.map_congr_left fun c hc => toLower_of_isDigit (h c hc)).trans (List.map_id cs)

/-! ### Numbers -/

theorem magnitude_map_toLower (bound : Nat) (fault : IntegerFault) (n : Nat) (cs : List Char) :
    magnitude bound fault n (cs.map Char.toLower) = magnitude bound fault n cs := by
  induction cs generalizing n with
  | nil => rfl
  | cons c cs ih =>
    rw [List.map_cons, magnitude, magnitude, digitValue?_toLower]
    simp only [ih]

theorem someMagnitude_map_toLower (bound : Nat) (fault : IntegerFault) (cs : List Char) :
    someMagnitude bound fault (cs.map Char.toLower) = someMagnitude bound fault cs := by
  cases cs with
  | nil => rfl
  | cons c cs => exact magnitude_map_toLower bound fault 0 (c :: cs)

/-- Letters make no number, so small ones make no other number than capitals. -/
theorem readNatural_map_toLower (above : Nat) (cs : List Char) :
    readNatural above (cs.map Char.toLower) = readNatural above cs := by
  cases cs with
  | nil => rfl
  | cons c cs =>
    by_cases hc : c = '+'
    · subst hc
      exact someMagnitude_map_toLower above .tooLarge cs
    · have hlower : c.toLower ≠ '+' := mt (toLower_eq_iff (by decide)).1 hc
      rw [List.map_cons, readNatural_cons_of_ne hc, readNatural_cons_of_ne hlower]
      exact someMagnitude_map_toLower above .tooLarge (c :: cs)

end RingScan.Text
