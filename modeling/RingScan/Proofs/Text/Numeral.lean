import Mathlib.Data.Nat.Digits.Lemmas
import RingScan.Proofs.Failure.Traversal
import RingScan.Proofs.Text.Digits

/-!
# Numerals

A text denotes an integer if it consists of decimal digits, at least one, after at most one sign.
Leading zeros make no difference, and neither does the sign of zero.  A reader with bounds gives up
at the first digit that takes a number beyond its bound, which loses nothing: further digits never
make a number smaller.  So the reader accepts the texts that denote an integer within the bounds,
and gives that integer.

## Main definitions

* `Text.numeral`: the number that digits stand for.
* `Text.IsNumeral`: a text of digits, at least one.
* `Text.Denotes`: the integer that a text denotes.

## Main statements

* `Text.readInteger_eq_ok_iff`: a reader with bounds gives the integer that a text denotes.
* `Text.denotes_integer`: the text of an integer denotes it.
* `Text.readNatural_digits`: the digits of a natural number are read as the number.
-/

namespace RingScan.Text

/-- The number that decimal digits stand for, of which the first is the most significant. -/
def numeral (cs : List Char) : ℕ :=
  Nat.ofDigits 10 (cs.reverse.map fun c => c.toNat - '0'.toNat)

/-- Decimal digits, at least one. -/
def IsNumeral (cs : List Char) : Prop :=
  cs ≠ [] ∧ ∀ c ∈ cs, c.isDigit = true

/-- The text denotes the integer: by its digits, after at most one sign. -/
inductive Denotes : List Char → ℤ → Prop
  /-- Without a sign. -/
  | unsigned {cs : List Char} (h : IsNumeral cs) : Denotes cs (numeral cs)
  /-- With a plus sign. -/
  | plus {cs : List Char} (h : IsNumeral cs) : Denotes ('+' :: cs) (numeral cs)
  /-- With a minus sign. -/
  | minus {cs : List Char} (h : IsNumeral cs) : Denotes ('-' :: cs) (-(numeral cs : ℤ))

variable {below above bound n m : ℕ} {fault : IntegerFault} {cs : List Char}

/-! ### Digits of either end -/

@[simp] theorem numeral_nil : numeral [] = 0 := rfl

theorem numeral_cons (c : Char) (cs : List Char) :
    numeral (c :: cs) = (c.toNat - '0'.toNat) * 10 ^ cs.length + numeral cs := by
  rw [numeral, List.reverse_cons, List.map_append, Nat.ofDigits_append, List.length_map,
    List.length_reverse, List.map_singleton, Nat.ofDigits_singleton, Nat.mul_comm, Nat.add_comm,
    numeral]

/-- Digits that follow those of a number shift it to the left. -/
theorem foldl_eq_numeral (n : ℕ) (cs : List Char) :
    cs.foldl (fun n c => n * 10 + (c.toNat - '0'.toNat)) n = n * 10 ^ cs.length + numeral cs := by
  induction cs generalizing n with
  | nil => simp
  | cons c cs ih =>
    rw [List.foldl_cons, ih, numeral_cons, List.length_cons, pow_succ]
    ring

theorem numeral_digits (n : ℕ) : numeral (digits n) = n := by
  have hfold := foldl_eq_numeral 0 (digits n)
  rw [foldl_digits, Nat.zero_mul, Nat.zero_add] at hfold
  exact hfold.symm

theorem isNumeral_digits (n : ℕ) : IsNumeral (digits n) :=
  ⟨digits_ne_nil n, fun _ => isDigit_of_mem_digits⟩

theorem isNumeral_cons_iff {c : Char} :
    IsNumeral (c :: cs) ↔ c.isDigit = true ∧ ∀ d ∈ cs, d.isDigit = true := by
  rw [IsNumeral, List.forall_mem_cons, and_iff_right (List.cons_ne_nil c cs)]

/-- A numeral does not start with a sign. -/
theorem not_isNumeral_cons {c : Char} (h : c.isDigit = false) : ¬ IsNumeral (c :: cs) := by
  rw [isNumeral_cons_iff, h]
  simp

theorem digitValue?_eq (c : Char) :
    digitValue? c = if c.isDigit then some (c.toNat - '0'.toNat) else none := by
  have hbounds : ('0' ≤ c ∧ c ≤ '9') ↔ c.isDigit = true := by
    simp [Char.isDigit, Char.le_def]
  rw [digitValue?]
  exact if_congr hbounds rfl rfl

/-! ### Numbers within a bound -/

/-- Digits are read as far as the bound allows, and no part of a number is above the number. -/
theorem magnitude_eq_ok_iff (h : n ≤ bound) :
    magnitude bound fault n cs = .ok m ↔
      (∀ c ∈ cs, c.isDigit = true) ∧ m = n * 10 ^ cs.length + numeral cs ∧ m ≤ bound := by
  induction cs generalizing n with
  | nil =>
    simp only [magnitude, Except.ok.injEq, List.not_mem_nil, IsEmpty.forall_iff, implies_true,
      true_and, List.length_nil, pow_zero, Nat.mul_one, numeral_nil, Nat.add_zero]
    omega
  | cons c cs ih =>
    rw [magnitude, digitValue?_eq, List.forall_mem_cons]
    by_cases hc : c.isDigit = true
    · have hsum : n * 10 ^ (c :: cs).length + numeral (c :: cs) =
          (n * 10 + (c.toNat - '0'.toNat)) * 10 ^ cs.length + numeral cs := by
        rw [numeral_cons, List.length_cons, pow_succ]
        ring
      rw [if_pos hc, hsum, and_iff_right hc]
      by_cases hfits : n * 10 + (c.toNat - '0'.toNat) ≤ bound
      · simp only [if_pos hfits, ih hfits]
      · simp only [if_neg hfits]
        refine iff_of_false nofun ?_
        rintro ⟨-, rfl, hle⟩
        have hpart := Nat.le_mul_of_pos_right (n * 10 + (c.toNat - '0'.toNat))
          (Nat.pow_pos (n := cs.length) (show 0 < 10 by decide))
        omega
    · rw [if_neg hc]
      exact iff_of_false nofun fun h => hc h.1.1

theorem someMagnitude_eq_ok_iff :
    someMagnitude bound fault cs = .ok m ↔ IsNumeral cs ∧ m = numeral cs ∧ m ≤ bound := by
  cases cs with
  | nil => exact iff_of_false nofun fun h => h.1.1 rfl
  | cons c cs =>
    rw [someMagnitude, magnitude_eq_ok_iff (Nat.zero_le bound), Nat.zero_mul, Nat.zero_add,
      IsNumeral, and_iff_right (List.cons_ne_nil c cs)]
    simp

theorem someMagnitude_of_ne_nil (h : cs ≠ []) :
    someMagnitude bound fault cs = magnitude bound fault 0 cs := by
  cases cs with
  | nil => exact absurd rfl h
  | cons c cs => rfl

theorem map_someMagnitude_eq_ok_iff {sign : ℕ → ℤ} {k : ℤ} :
    (someMagnitude bound fault cs).map sign = .ok k ↔
      (IsNumeral cs ∧ k = sign (numeral cs)) ∧ numeral cs ≤ bound := by
  simp only [Traversal.map_eq_ok_iff, someMagnitude_eq_ok_iff]
  constructor
  · rintro ⟨_, ⟨hcs, rfl, hle⟩, rfl⟩
    exact ⟨⟨hcs, rfl⟩, hle⟩
  · rintro ⟨⟨hcs, rfl⟩, hle⟩
    exact ⟨_, ⟨hcs, rfl, hle⟩, rfl⟩

/-! ### Integers -/

section Signs

variable {k : ℤ}

theorem denotes_plus_iff : Denotes ('+' :: cs) k ↔ IsNumeral cs ∧ k = numeral cs := by
  constructor
  · rintro (h | h | -)
    · exact absurd h (not_isNumeral_cons rfl)
    · exact ⟨h, rfl⟩
  · rintro ⟨h, rfl⟩
    exact .plus h

theorem denotes_minus_iff : Denotes ('-' :: cs) k ↔ IsNumeral cs ∧ k = -(numeral cs : ℤ) := by
  constructor
  · rintro (h | - | h)
    · exact absurd h (not_isNumeral_cons rfl)
    · exact ⟨h, rfl⟩
  · rintro ⟨h, rfl⟩
    exact .minus h

theorem denotes_unsigned_iff (hplus : ∀ rest, cs ≠ '+' :: rest)
    (hminus : ∀ rest, cs ≠ '-' :: rest) :
    Denotes cs k ↔ IsNumeral cs ∧ k = numeral cs := by
  constructor
  · rintro (h | - | -)
    · exact ⟨h, rfl⟩
    · exact absurd rfl (hplus _)
    · exact absurd rfl (hminus _)
  · rintro ⟨h, rfl⟩
    exact .unsigned h

theorem not_denotes_nil : ¬ Denotes [] k := by
  rintro (h | -)
  exact h.1 rfl

/-- The text of an integer denotes it. -/
theorem denotes_integer (k : ℤ) : Denotes (integer k) k := by
  cases k with
  | ofNat n =>
    have h := Denotes.unsigned (isNumeral_digits n)
    rwa [numeral_digits] at h
  | negSucc n =>
    have h := Denotes.minus (isNumeral_digits (n + 1))
    rwa [numeral_digits] at h

/-- A reader with bounds gives the integer that a text denotes, if it is within them. -/
theorem readInteger_eq_ok_iff :
    readInteger below above cs = .ok k ↔ Denotes cs k ∧ -(below : ℤ) ≤ k ∧ k ≤ above := by
  unfold readInteger
  split
  · exact iff_of_false nofun fun h => not_denotes_nil h.1
  · rw [map_someMagnitude_eq_ok_iff, denotes_plus_iff]
    refine and_congr_right fun ⟨_, hk⟩ => ?_
    rw [Int.ofNat_eq_natCast] at hk
    omega
  · rw [map_someMagnitude_eq_ok_iff, denotes_minus_iff]
    refine and_congr_right fun ⟨_, hk⟩ => ?_
    rw [Int.ofNat_eq_natCast] at hk
    omega
  · rename_i hnil hplus hminus
    rw [← someMagnitude_of_ne_nil hnil, map_someMagnitude_eq_ok_iff,
      denotes_unsigned_iff hplus hminus]
    refine and_congr_right fun ⟨_, hk⟩ => ?_
    rw [Int.ofNat_eq_natCast] at hk
    omega

end Signs

/-! ### Natural numbers -/

/-- Without a plus sign a natural number starts with a digit. -/
theorem readNatural_cons_of_ne {c : Char} (h : c ≠ '+') :
    readNatural above (c :: cs) = someMagnitude above .tooLarge (c :: cs) := by
  unfold readNatural
  split
  · rename_i heq
    cases heq
  · rename_i heq
    exact absurd (List.cons.inj heq).1 h
  · rfl

/-- The digits of a natural number are read as the number, if the bound allows. -/
theorem readNatural_digits (h : n ≤ above) : readNatural above (digits n) = .ok n := by
  have hread : someMagnitude above .tooLarge (digits n) = .ok n :=
    someMagnitude_eq_ok_iff.2 ⟨isNumeral_digits n, (numeral_digits n).symm, h⟩
  obtain ⟨c, cs, hcs⟩ := List.exists_cons_of_ne_nil (digits_ne_nil n)
  have hc : c ≠ '+' := by
    rintro rfl
    exact not_isNumeral_cons rfl (hcs ▸ isNumeral_digits n)
  rw [hcs] at hread ⊢
  rw [readNatural_cons_of_ne hc, hread]

end RingScan.Text
