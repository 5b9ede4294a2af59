import RingScan.Proofs.Text.Digits
import RingScan.Proofs.Text.Utf8
import RingScan.Text.Blank

/-!
# Bytes in hexadecimal digits

Bytes are written in small digits, two for each, and the digits are read as the bytes again.  A text
of small digits is what is written for the bytes that it is read as, so it stands for bytes as soon
as the number of its digits is even.  Digits of either case are read by their values: a text stands
for the bytes whose halves are the values of its digits.

## Main definitions

* `Text.Hex.Denotes`: the bytes that a text denotes by the values of its digits.

## Main statements

* `Text.Hex.decode_encode`: the digits of bytes stand for them.
* `Text.Hex.encode_injective`: different bytes have different digits.
* `Text.Hex.decode_eq_ok_iff`: what small digits stand for.
* `Text.Hex.decode_eq_ok_iff_denotes`: what digits of either case stand for.
* `Text.Hex.exists_denotes_iff`: the texts that denote bytes.
-/

namespace RingScan.Text

namespace Hex

theorem digit_plain {n : ℕ} (h : n < 16) : digit n ≠ '-' ∧ isBlank (digit n) = false := by
  revert n
  decide

/-- A digit takes one byte, which has its value. -/
theorem byteValue?_digit {n : ℕ} (h : n < 16) :
    ∃ b, String.utf8EncodeChar (digit n) = [b] ∧ byteValue? b = some n := by
  have hall : ∀ n < 16, String.utf8EncodeChar (digit n) = [UInt8.ofNat (digit n).toNat] ∧
    byteValue? (UInt8.ofNat (digit n).toNat) = some n := by decide
  exact ⟨_, hall n h⟩

/-! ### Written bytes -/

theorem decodePairs_encode (position : ℕ) (bytes : Bytes) :
    decodePairs position (Utf8.encode (encode bytes)) = .ok bytes := by
  induction bytes generalizing position with
  | nil => rfl
  | cons b bytes ih =>
    have hb : b.toNat < 256 := b.toNat_lt
    obtain ⟨high, hhigh, hhighValue⟩ := byteValue?_digit (show b.toNat / 16 < 16 by omega)
    obtain ⟨low, hlow, hlowValue⟩ := byteValue?_digit (show b.toNat % 16 < 16 by omega)
    have hbytes : Utf8.encode (encode (b :: bytes)) =
        high :: low :: Utf8.encode (encode bytes) := by
      simp only [encode, pair, Utf8.encode, List.flatMap_cons, List.cons_append, List.nil_append,
        hhigh, hlow]
    have hvalue : UInt8.ofNat (16 * (b.toNat / 16) + b.toNat % 16) = b := by
      rw [Nat.div_add_mod, UInt8.ofNat_toNat]
    rw [hbytes, decodePairs, hhighValue, hlowValue]
    simp only [ih, Except.map, hvalue]

theorem length_encode (bytes : Bytes) :
    (Utf8.encode (encode bytes)).length = 2 * bytes.length := by
  induction bytes with
  | nil => rfl
  | cons b bytes ih =>
    have hb : b.toNat < 256 := b.toNat_lt
    obtain ⟨high, hhigh, -⟩ := byteValue?_digit (show b.toNat / 16 < 16 by omega)
    obtain ⟨low, hlow, -⟩ := byteValue?_digit (show b.toNat % 16 < 16 by omega)
    simp only [encode, pair, Utf8.encode, List.flatMap_cons, List.cons_append, List.nil_append,
      hhigh, hlow, List.length_cons] at ih ⊢
    omega

/-- The digits of bytes stand for them. -/
theorem decode_encode (bytes : Bytes) : decode (Utf8.encode (encode bytes)) = .ok bytes := by
  rw [decode, length_encode, Nat.mul_mod_right, if_pos rfl, decodePairs_encode]

/-- Different bytes have different digits. -/
theorem encode_injective : Function.Injective encode := by
  intro bytes other h
  have hdecode : (.ok bytes : Except Fault Bytes) = .ok other := by
    rw [← decode_encode bytes, h, decode_encode]
  exact Except.ok.inj hdecode

/-! ### Small digits -/

/-- The small digits, which are the ones that bytes are written in. -/
def IsSmall (c : Char) : Prop :=
  ∃ n < 16, c = digit n

theorem length_utf8 {cs : List Char} (h : ∀ c ∈ cs, IsSmall c) :
    (Utf8.encode cs).length = cs.length := by
  induction cs with
  | nil => rfl
  | cons c cs ih =>
    obtain ⟨⟨n, hn, rfl⟩, hcs⟩ := List.forall_mem_cons.1 h
    obtain ⟨b, hb, -⟩ := byteValue?_digit hn
    have hrest := ih hcs
    rw [Utf8.encode] at hrest ⊢
    rw [List.flatMap_cons, hb, List.length_append, hrest, List.length_singleton, List.length_cons,
      Nat.add_comm]

theorem pair_ofNat {high low : ℕ} (hhigh : high < 16) (hlow : low < 16) :
    pair (UInt8.ofNat (16 * high + low)) = [digit high, digit low] := by
  have hvalue : (UInt8.ofNat (16 * high + low)).toNat = 16 * high + low :=
    UInt8.toNat_ofNat_of_lt' (show 16 * high + low < 256 by omega)
  rw [pair, hvalue, show (16 * high + low) / 16 = high by omega,
    show (16 * high + low) % 16 = low by omega]

/-- An even number of small digits is written for some bytes. -/
theorem exists_encode_eq : ∀ {cs : List Char}, (∀ c ∈ cs, IsSmall c) → 2 ∣ cs.length →
    ∃ bytes, encode bytes = cs
  | [], _, _ => ⟨[], rfl⟩
  | [_], _, heven => absurd heven (by rw [List.length_singleton]; decide)
  | _ :: _ :: cs, h, heven => by
    obtain ⟨⟨high, hhigh, rfl⟩, hrest⟩ := List.forall_mem_cons.1 h
    obtain ⟨⟨low, hlow, rfl⟩, hcs⟩ := List.forall_mem_cons.1 hrest
    obtain ⟨bytes, hbytes⟩ := exists_encode_eq hcs (by
      simp only [List.length_cons] at heven
      omega)
    refine ⟨UInt8.ofNat (16 * high + low) :: bytes, ?_⟩
    rw [encode, List.flatMap_cons, pair_ofNat hhigh hlow, ← hbytes]
    rfl

/-- Small digits stand for the bytes that they are written for. -/
theorem decode_eq_ok_iff {cs : List Char} (h : ∀ c ∈ cs, IsSmall c) {bytes : Bytes} :
    decode (Utf8.encode cs) = .ok bytes ↔ encode bytes = cs := by
  constructor
  · intro hdecode
    have heven : 2 ∣ cs.length := by
      rw [← length_utf8 h]
      by_contra hodd
      rw [decode, if_neg (by omega)] at hdecode
      cases hdecode
    obtain ⟨other, rfl⟩ := exists_encode_eq h heven
    rw [decode_encode] at hdecode
    exact congrArg encode (Except.ok.inj hdecode).symm
  · rintro rfl
    exact decode_encode bytes

/-! ### Decimal digits -/

end Hex

theorem Hex.digit_eq_digitChar {d : ℕ} (h : d < 10) : Hex.digit d = digitChar d := by
  rw [Hex.digit, if_pos h, digitChar]

/-- Decimal digits are small hexadecimal digits. -/
theorem isSmall_of_mem_digits {n : ℕ} {c : Char} (h : c ∈ digits n) : Hex.IsSmall c := by
  obtain ⟨d, hd, rfl⟩ := exists_digitChar_of_mem h
  exact ⟨d, by omega, (Hex.digit_eq_digitChar hd).symm⟩

theorem isBlank_of_mem_digits {n : ℕ} {c : Char} (h : c ∈ digits n) : isBlank c = false := by
  obtain ⟨d, hd, rfl⟩ := isSmall_of_mem_digits h
  exact (Hex.digit_plain hd).2

namespace Hex

/-! ### Digits of either case -/

/-- The halves of bytes, the high half of each first. -/
def halves (bytes : Bytes) : List ℕ :=
  bytes.flatMap fun b => [b.toNat / 16, b.toNat % 16]

/-- The text denotes the bytes: each character is a digit, and the values of the digits are the
halves of the bytes. -/
def Denotes (cs : List Char) (bytes : Bytes) : Prop :=
  cs.map value? = (halves bytes).map some

theorem halves_cons (b : UInt8) (bytes : Bytes) :
    halves (b :: bytes) = b.toNat / 16 :: b.toNat % 16 :: halves bytes := rfl

theorem length_halves (bytes : Bytes) : (halves bytes).length = 2 * bytes.length := by
  induction bytes with
  | nil => rfl
  | cons b bytes ih =>
    rw [halves_cons, List.length_cons, List.length_cons, ih, List.length_cons]
    omega

/-- There are two halves of each byte. -/
theorem length_of_map_eq_halves {α : Type} {f : α → Option ℕ} {items : List α} {bytes : Bytes}
    (h : items.map f = (halves bytes).map some) : items.length = 2 * bytes.length := by
  have hlength := congrArg List.length h
  rwa [List.length_map, List.length_map, length_halves] at hlength

theorem value?_eq_some_iff {c : Char} {n : ℕ} :
    value? c = some n ↔
      (48 ≤ c.toNat ∧ c.toNat ≤ 57) ∧ n = c.toNat - 48 ∨
      (97 ≤ c.toNat ∧ c.toNat ≤ 102) ∧ n = c.toNat - 87 ∨
      (65 ≤ c.toNat ∧ c.toNat ≤ 70) ∧ n = c.toNat - 55 := by
  have hle (a b : Char) : a ≤ b ↔ a.toNat ≤ b.toNat := Char.le_def.trans UInt32.le_iff_toNat_le
  rw [value?]
  simp only [hle, show '0'.toNat = 48 from rfl, show '9'.toNat = 57 from rfl,
    show 'a'.toNat = 97 from rfl, show 'f'.toNat = 102 from rfl, show 'A'.toNat = 65 from rfl,
    show 'F'.toNat = 70 from rfl]
  split_ifs <;> simp only [Option.some.injEq, false_iff] <;> omega

theorem value?_lt {c : Char} {n : ℕ} (h : value? c = some n) : n < 16 := by
  rw [value?_eq_some_iff] at h
  omega

/-- Digits have numbers below 128. -/
theorem toNat_lt_of_isDigit {c : Char} (h : isDigit c = true) : c.toNat < 128 := by
  obtain ⟨n, hn⟩ := Option.isSome_iff_exists.1 h
  rw [value?_eq_some_iff] at hn
  omega

/-- The digits of either case. -/
theorem isDigit_iff_mem {c : Char} :
    isDigit c = true ↔ c ∈ "0123456789abcdefABCDEF".toList := by
  constructor
  · have hdecimal : ∀ k < 10, Char.ofNat (48 + k) ∈ "0123456789abcdefABCDEF".toList := by decide
    have hsmall : ∀ k < 6, Char.ofNat (97 + k) ∈ "0123456789abcdefABCDEF".toList := by decide
    have hcapital : ∀ k < 6, Char.ofNat (65 + k) ∈ "0123456789abcdefABCDEF".toList := by decide
    intro h
    obtain ⟨n, hn⟩ := Option.isSome_iff_exists.1 h
    rw [← Char.ofNat_toNat c]
    rcases value?_eq_some_iff.1 hn with ⟨hc, -⟩ | ⟨hc, -⟩ | ⟨hc, -⟩
    · rw [← Nat.add_sub_of_le hc.1]
      exact hdecimal _ (by omega)
    · rw [← Nat.add_sub_of_le hc.1]
      exact hsmall _ (by omega)
    · rw [← Nat.add_sub_of_le hc.1]
      exact hcapital _ (by omega)
  · have hall : "0123456789abcdefABCDEF".toList.all isDigit = true := by decide
    exact List.all_eq_true.1 hall c

theorem ofNat_eq_iff_halves {high low : ℕ} (hhigh : high < 16) (hlow : low < 16) {b : UInt8} :
    UInt8.ofNat (16 * high + low) = b ↔ high = b.toNat / 16 ∧ low = b.toNat % 16 := by
  rw [← UInt8.toNat_inj, UInt8.toNat_ofNat_of_lt' (show 16 * high + low < 256 by omega)]
  omega

/-- Pairs of digits are read as the bytes whose halves they are. -/
theorem decodePairs_eq_ok_iff {position : ℕ} {digits bytes : Bytes} (h : 2 ∣ digits.length) :
    decodePairs position digits = .ok bytes ↔
      digits.map byteValue? = (halves bytes).map some := by
  induction position, digits using decodePairs.induct generalizing bytes with
  | case1 position high low rest x y hlow hhigh ih =>
    have hrest : 2 ∣ rest.length := by
      simp only [List.length_cons] at h
      omega
    rw [decodePairs, hhigh, hlow, List.map_cons, List.map_cons, hhigh, hlow]
    simp only [Traversal.map_eq_ok_iff, ih hrest]
    cases bytes with
    | nil => exact iff_of_false (by rintro ⟨_, -, ⟨⟩⟩) nofun
    | cons b bytes =>
      simp only [List.cons.injEq, ofNat_eq_iff_halves (value?_lt hhigh) (value?_lt hlow),
        halves_cons, List.map_cons, Option.some.injEq]
      constructor
      · rintro ⟨_, hrest, ⟨hx, hy⟩, rfl⟩
        exact ⟨hx, hy, hrest⟩
      · rintro ⟨hx, hy, hrest⟩
        exact ⟨bytes, hrest, ⟨hx, hy⟩, rfl⟩
  | case2 position high low rest hhigh =>
    rw [decodePairs, hhigh, List.map_cons, hhigh]
    refine iff_of_false nofun ?_
    cases bytes <;> simp [halves]
  | case3 position high low rest x hlow hhigh =>
    rw [decodePairs, hhigh, hlow, List.map_cons, List.map_cons, hlow]
    refine iff_of_false nofun ?_
    cases bytes <;> simp [halves]
  | case4 digits position hshort =>
    match digits, h with
    | [], _ => cases bytes <;> simp [decodePairs, halves]
    | [_], h => exact absurd h (by rw [List.length_singleton]; decide)
    | high :: low :: rest, _ => exact absurd rfl (hshort high low rest)

/-- Of a text of characters below 128 each byte has the value of its character. -/
theorem map_byteValue?_encode {cs : List Char} (h : ∀ c ∈ cs, c.toNat < 128) :
    (Utf8.encode cs).map byteValue? = cs.map value? := by
  induction cs with
  | nil => rfl
  | cons c cs ih =>
    obtain ⟨hc, hcs⟩ := List.forall_mem_cons.1 h
    have hbyte : (UInt8.ofNat c.toNat).toNat = c.toNat :=
      UInt8.toNat_ofNat_of_lt' (show c.toNat < 256 by omega)
    have hchar : String.utf8EncodeChar c = [UInt8.ofNat c.toNat] := by
      have hone := Utf8.utf8EncodeChar_one (a := UInt8.ofNat c.toNat) (by omega)
      rwa [hbyte, Char.ofNat_toNat] at hone
    rw [Utf8.encode, List.flatMap_cons, hchar, List.map_append, List.map_singleton, byteValue?,
      hbyte, Char.ofNat_toNat]
    exact congrArg (value? c :: ·) (ih hcs)

/-- The bytes of a text are digits of some values exactly if its characters are. -/
theorem map_byteValue?_eq_iff {cs : List Char} {values : List ℕ} :
    (Utf8.encode cs).map byteValue? = values.map some ↔ cs.map value? = values.map some := by
  have hsmall (c : Char) (h : ∃ n ∈ values, some n = value? c) : c.toNat < 128 := by
    obtain ⟨n, -, hn⟩ := h
    exact toNat_lt_of_isDigit (Option.isSome_iff_exists.2 ⟨n, hn.symm⟩)
  constructor
  · intro h
    have hbytes : ∀ b ∈ Utf8.encode cs, b.toNat < 128 := by
      intro b hb
      have hvalue := hsmall (Char.ofNat b.toNat)
        (List.mem_map.1 (h ▸ List.mem_map_of_mem (f := byteValue?) hb))
      rwa [Utf8.toNat_ofNat (.inl (by have := b.toNat_lt; omega))] at hvalue
    rw [← h, map_byteValue?_encode ((Utf8.forall_mem_encode_iff cs).1 hbytes)]
  · intro h
    rw [← h, map_byteValue?_encode fun c hc =>
      hsmall c (List.mem_map.1 (h ▸ List.mem_map_of_mem (f := value?) hc))]

/-- A text stands for the bytes that it denotes, and no other text stands for any. -/
theorem decode_eq_ok_iff_denotes {cs : List Char} {bytes : Bytes} :
    decode (Utf8.encode cs) = .ok bytes ↔ Denotes cs bytes := by
  rw [Denotes, ← map_byteValue?_eq_iff, decode]
  by_cases heven : 2 ∣ (Utf8.encode cs).length
  · rw [if_pos (by omega), decodePairs_eq_ok_iff heven]
  · rw [if_neg (by omega)]
    exact iff_of_false nofun fun h => heven ⟨bytes.length, length_of_map_eq_halves h⟩

/-- An even number of digits denotes some bytes. -/
theorem exists_denotes : ∀ {cs : List Char}, 2 ∣ cs.length → (∀ c ∈ cs, isDigit c = true) →
    ∃ bytes, Denotes cs bytes
  | [], _, _ => ⟨[], rfl⟩
  | [_], heven, _ => absurd heven (by rw [List.length_singleton]; decide)
  | high :: low :: cs, heven, h => by
    obtain ⟨hhigh, hrest⟩ := List.forall_mem_cons.1 h
    obtain ⟨hlow, hcs⟩ := List.forall_mem_cons.1 hrest
    obtain ⟨x, hx⟩ := Option.isSome_iff_exists.1 hhigh
    obtain ⟨y, hy⟩ := Option.isSome_iff_exists.1 hlow
    have hleft : 2 ∣ cs.length := by
      simp only [List.length_cons] at heven
      omega
    obtain ⟨bytes, hbytes⟩ := exists_denotes hleft hcs
    obtain ⟨hhigh, hlow⟩ := (ofNat_eq_iff_halves (value?_lt hx) (value?_lt hy)).1 rfl
    refine ⟨UInt8.ofNat (16 * x + y) :: bytes, ?_⟩
    rw [Denotes, halves_cons, ← hhigh, ← hlow, List.map_cons, List.map_cons, hx, hy, hbytes]
    rfl

/-- The texts that denote bytes are those of an even number of digits. -/
theorem exists_denotes_iff {cs : List Char} :
    (∃ bytes, Denotes cs bytes) ↔ 2 ∣ cs.length ∧ ∀ c ∈ cs, isDigit c = true := by
  refine ⟨?_, fun h => exists_denotes h.1 h.2⟩
  rintro ⟨bytes, h⟩
  refine ⟨⟨bytes.length, length_of_map_eq_halves h⟩, fun c hc => ?_⟩
  obtain ⟨n, -, hn⟩ := List.mem_map.1 (h ▸ List.mem_map_of_mem (f := value?) hc)
  exact Option.isSome_iff_exists.2 ⟨n, hn.symm⟩

/-- The digits of bytes denote them. -/
theorem denotes_encode (bytes : Bytes) : Denotes (encode bytes) bytes :=
  decode_eq_ok_iff_denotes.1 (decode_encode bytes)

end Hex

end RingScan.Text
