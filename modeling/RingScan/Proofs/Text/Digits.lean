import Mathlib.Data.List.Basic
import Mathlib.Data.List.TakeWhile
import Mathlib.Data.Nat.Digits.Defs
import RingScan.Text.Hex
import RingScan.Text.Integer

/-!
# Digits of a number

A number is written without leading zeros, in decimal digits or, inside an address, in hexadecimal
ones.  Whoever reads the digits as far as they go and sums them up has the number again, wherever
something else than a digit follows.

## Main definitions

* `Text.Hex.isDigit`: the hexadecimal digits.

## Main statements

* `Text.takeWhile_digits`, `Text.foldl_digits`: the digits of a number are read as far as they go
  and stand for it.
* `Text.eq_zero_of_head?_digits`: only zero starts with the digit zero.
* `Text.integer_injective`: different integers have different texts.
* `Text.Hex.isDigit_of_mem_toDigits`, `Text.Hex.filterMap_toDigits`: the same for hexadecimal
  digits.
-/

namespace RingScan.Text

section Span

variable {p : Char → Bool} {cs rest : List Char}

theorem takeWhile_of_head? (hstop : rest.head?.any p = false) : rest.takeWhile p = [] := by
  cases rest with
  | nil => rfl
  | cons c rest =>
    have hc : p c = false := hstop
    rw [List.takeWhile_cons, hc, if_neg Bool.false_ne_true]

/-- What has a property is taken off the front of a text, up to a character that has it not. -/
theorem takeWhile_append_of_stop (hall : ∀ c ∈ cs, p c = true)
    (hstop : rest.head?.any p = false) : (cs ++ rest).takeWhile p = cs := by
  rw [List.takeWhile_append_of_pos hall, takeWhile_of_head? hstop, List.append_nil]

theorem dropWhile_append_of_stop (hall : ∀ c ∈ cs, p c = true)
    (hstop : rest.head?.any p = false) : (cs ++ rest).dropWhile p = rest := by
  rw [List.dropWhile_append_of_pos hall]
  cases rest with
  | nil => rfl
  | cons c rest =>
    have hc : p c = false := hstop
    rw [List.dropWhile_cons, hc, if_neg Bool.false_ne_true]

private theorem bne_of_not_mem {d : Char} (h : d ∉ cs) : ∀ c ∈ cs, (c != d) = true :=
  fun _ hc => bne_iff_ne.2 fun heq => h (heq ▸ hc)

private theorem head?_any_bne (d : Char) (rest : List Char) :
    (d :: rest).head?.any (· != d) = false :=
  bne_self_eq_false d

/-- A text is cut where a character first occurs. -/
theorem takeWhile_bne_append {d : Char} (h : d ∉ cs) (rest : List Char) :
    (cs ++ d :: rest).takeWhile (· != d) = cs :=
  takeWhile_append_of_stop (bne_of_not_mem h) (head?_any_bne d rest)

theorem dropWhile_bne_append {d : Char} (h : d ∉ cs) (rest : List Char) :
    (cs ++ d :: rest).dropWhile (· != d) = d :: rest :=
  dropWhile_append_of_stop (bne_of_not_mem h) (head?_any_bne d rest)

end Span

/-! ### Decimal digits -/

theorem digitChar_spec {d : ℕ} (h : d < 10) :
    (digitChar d).isDigit = true ∧ (digitChar d).toNat - '0'.toNat = d ∧
      (digitChar d = '0' → d = 0) := by
  revert d
  decide

theorem exists_digitChar_of_mem {n : ℕ} {c : Char} (h : c ∈ digits n) :
    ∃ d < 10, c = digitChar d := by
  induction n using digits.induct with
  | case1 n hn =>
    rw [digits, if_pos hn, List.mem_singleton] at h
    exact ⟨n, hn, h⟩
  | case2 n hn ih =>
    rw [digits, if_neg hn, List.mem_append, List.mem_singleton] at h
    rcases h with h | rfl
    · exact ih h
    · exact ⟨n % 10, Nat.mod_lt n (by decide), rfl⟩

theorem isDigit_of_mem_digits {n : ℕ} {c : Char} (h : c ∈ digits n) : c.isDigit = true := by
  obtain ⟨d, hd, rfl⟩ := exists_digitChar_of_mem h
  exact (digitChar_spec hd).1

theorem digits_ne_nil (n : ℕ) : digits n ≠ [] := by
  rw [digits]
  split <;> simp

/-- Only zero starts with the digit zero. -/
theorem eq_zero_of_head?_digits {n : ℕ} (h : (digits n).head? = some '0') : n = 0 := by
  induction n using digits.induct with
  | case1 n hn =>
    rw [digits, if_pos hn, List.head?_cons, Option.some_inj] at h
    exact (digitChar_spec hn).2.2 h
  | case2 n hn ih =>
    rw [digits, if_neg hn, List.head?_append_of_ne_nil _ (digits_ne_nil _)] at h
    have hzero := ih h
    omega

/-- The digits of a number stand for it. -/
theorem foldl_digits (n : ℕ) :
    (digits n).foldl (fun n c => n * 10 + (c.toNat - '0'.toNat)) 0 = n := by
  induction n using digits.induct with
  | case1 n hn =>
    rw [digits, if_pos hn, List.foldl_cons, List.foldl_nil, (digitChar_spec hn).2.1]
    omega
  | case2 n hn ih =>
    rw [digits, if_neg hn, List.foldl_append, ih, List.foldl_cons, List.foldl_nil,
      (digitChar_spec (Nat.mod_lt n (by decide))).2.1]
    omega

/-- Different numbers have different digits. -/
theorem digits_injective : Function.Injective digits := by
  intro m n h
  rw [← foldl_digits m, h, foldl_digits]

/-- Different integers have different texts. -/
theorem integer_injective : Function.Injective integer := by
  -- A sign is no digit, so the texts of integers with different signs differ.
  have hsign (m n : ℕ) : digits m ≠ '-' :: digits n := fun h =>
    absurd (isDigit_of_mem_digits (h ▸ List.mem_cons_self : '-' ∈ digits m)) (by decide)
  intro m n h
  cases m with
  | ofNat m =>
    cases n with
    | ofNat n => exact congrArg Int.ofNat (digits_injective h)
    | negSucc n => exact absurd h (hsign m (n + 1))
  | negSucc m =>
    cases n with
    | ofNat n => exact absurd h.symm (hsign n (m + 1))
    | negSucc n =>
      have hdigits : m + 1 = n + 1 := digits_injective (List.cons.inj h).2
      exact congrArg Int.negSucc (Nat.add_right_cancel hdigits)

theorem length_digits_le {n k : ℕ} (h : n < 10 ^ (k + 1)) : (digits n).length ≤ k + 1 := by
  induction k generalizing n with
  | zero =>
    rw [digits, if_pos (by simpa using h)]
    simp
  | succ k ih =>
    rw [digits]
    split
    · simp
    · rw [List.length_append, List.length_singleton]
      have hdiv := ih (n := n / 10) (Nat.div_lt_of_lt_mul (by rw [pow_succ'] at h; exact h))
      omega

section

variable {rest : List Char}

theorem takeWhile_digits (n : ℕ) (h : rest.head?.any Char.isDigit = false) :
    (digits n ++ rest).takeWhile Char.isDigit = digits n :=
  takeWhile_append_of_stop (fun _ => isDigit_of_mem_digits) h

theorem dropWhile_digits (n : ℕ) (h : rest.head?.any Char.isDigit = false) :
    (digits n ++ rest).dropWhile Char.isDigit = rest :=
  dropWhile_append_of_stop (fun _ => isDigit_of_mem_digits) h

end

/-! ### Hexadecimal digits -/

namespace Hex

/-- A hexadecimal digit of either case. -/
def isDigit (c : Char) : Bool :=
  (value? c).isSome

theorem isDigit_of_char_isDigit {c : Char} (h : c.isDigit = true) : isDigit c = true := by
  have hbounds : '0' ≤ c ∧ c ≤ '9' := by
    simpa [Char.isDigit, Char.le_def] using h
  rw [isDigit, value?, if_pos hbounds]
  rfl

theorem value?_digit {n : ℕ} (h : n < 16) : value? (digit n) = some n := by
  revert n
  decide

theorem isDigit_digit {n : ℕ} (h : n < 16) : isDigit (digit n) = true := by
  rw [isDigit, value?_digit h]
  rfl

/-- Bytes are written in digits. -/
theorem exists_digit_of_mem {bytes : Bytes} {c : Char} (h : c ∈ encode bytes) :
    ∃ n < 16, c = digit n := by
  obtain ⟨b, -, hc⟩ := List.mem_flatMap.1 h
  have hb : b.toNat < 256 := b.toNat_lt
  rcases List.mem_pair.1 hc with rfl | rfl
  · exact ⟨b.toNat / 16, by omega, rfl⟩
  · exact ⟨b.toNat % 16, by omega, rfl⟩

theorem value?_digitChar {d : ℕ} (h : d < 16) : value? d.digitChar = some d := by
  revert d
  decide

/-- The values of the hexadecimal digits of a number stand for it. -/
theorem exists_values_toDigits (n : ℕ) :
    ∃ values : List ℕ, (Nat.toDigits 16 n).map value? = values.map some ∧
      values.foldl (fun n d => n * 16 + d) 0 = n := by
  induction n using Nat.strongRecOn with
  | ind n ih =>
    rcases Nat.lt_or_ge n 16 with hlt | hge
    · refine ⟨[n], ?_, by simp⟩
      rw [Nat.toDigits_of_lt_base hlt]
      simp [value?_digitChar hlt]
    · obtain ⟨values, hvalues, hfold⟩ := ih (n / 16) (by omega)
      refine ⟨values ++ [n % 16], ?_, ?_⟩
      · rw [Nat.toDigits_of_base_le (by decide) hge]
        simp [hvalues, value?_digitChar (Nat.mod_lt n (by decide : 0 < 16))]
      · rw [List.foldl_append, hfold, List.foldl_cons, List.foldl_nil]
        omega

theorem isDigit_of_mem_toDigits {n : ℕ} {c : Char} (h : c ∈ Nat.toDigits 16 n) :
    isDigit c = true := by
  obtain ⟨values, hvalues, -⟩ := exists_values_toDigits n
  have hmem : value? c ∈ values.map some := hvalues ▸ List.mem_map_of_mem h
  obtain ⟨d, -, hd⟩ := List.mem_map.1 hmem
  rw [isDigit, ← hd]
  rfl

theorem filterMap_toDigits (n : ℕ) :
    ((Nat.toDigits 16 n).filterMap value?).length = (Nat.toDigits 16 n).length ∧
      ((Nat.toDigits 16 n).filterMap value?).foldl (fun n d => n * 16 + d) 0 = n := by
  obtain ⟨values, hvalues, hfold⟩ := exists_values_toDigits n
  have hfilter : (Nat.toDigits 16 n).filterMap value? = values := by
    simpa [List.filterMap_map] using congrArg (List.filterMap id) hvalues
  have hlength := congrArg List.length hvalues
  rw [List.length_map, List.length_map] at hlength
  rw [hfilter]
  exact ⟨hlength.symm, hfold⟩

end Hex

end RingScan.Text
