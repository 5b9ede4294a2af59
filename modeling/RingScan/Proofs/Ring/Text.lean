import RingScan.Proofs.Text.Hex
import RingScan.Ring.Partitioner

/-!
# Texts of tokens

A token is written as a decimal number or as the digits of its bytes.  Tokens of one sort have
different texts, so where the tokens of a ring come from one partitioner a text stands for one token
only.  Across the sorts a text may be shared: it is then that of a number without a sign whose
digits, of which there is an even number, are read as the bytes.

## Main definitions

* `Token.IsMistaken`: a number and bytes that share a text.
* `Partitioner.Produces`: a token is of the sort that a partitioner gives to keys.

## Main statements

* `Partitioner.text_inj`: of the sort of one partitioner, different tokens have different texts.
* `Token.text_long_eq_text_bytes_iff`: which texts are shared by a number and by bytes.
* `Partitioner.text_eq_iff_isMistaken`: of different sorts, only mistaken tokens share a text.
-/

namespace RingScan

namespace Token

theorem text_long_inj {m n : Int64} : (long m).text = (long n).text ↔ m = n := by
  rw [text, text, String.ofList_inj, Text.integer_injective.eq_iff, Int64.toInt_inj]

theorem text_bytes_inj {key other : Bytes} :
    (bytes key).text = (bytes other).text ↔ key = other := by
  rw [text, text, Text.Hex.text, Text.Hex.text, String.ofList_inj, Text.Hex.encode_injective.eq_iff]

/-- A number and bytes have the same text if and only if the number is not negative, the number of
its digits is even, and the bytes are these digits read as hexadecimal ones. -/
theorem text_long_eq_text_bytes_iff {n : Int64} {key : Bytes} :
    (long n).text = (bytes key).text ↔
      0 ≤ n.toInt ∧ 2 ∣ (Text.digits n.toInt.toNat).length ∧
        Text.Hex.decode (Text.Utf8.encode (Text.digits n.toInt.toNat)) = .ok key := by
  rw [text, text, Text.Hex.text, String.ofList_inj]
  cases hn : n.toInt with
  | negSucc m =>
    -- The sign is no digit of bytes.
    refine iff_of_false (fun h => ?_) fun h => (Int.negSucc_not_nonneg m).1 h.1
    have hmem : '-' ∈ Text.Hex.encode key := by
      rw [← h]
      exact List.mem_cons_self
    obtain ⟨d, hd, hsign⟩ := Text.Hex.exists_digit_of_mem hmem
    exact (Text.Hex.digit_plain hd).1 hsign.symm
  | ofNat m =>
    change Text.digits m = Text.Hex.encode key ↔ 0 ≤ Int.ofNat m ∧
      2 ∣ (Text.digits m).length ∧ Text.Hex.decode (Text.Utf8.encode (Text.digits m)) = .ok key
    rw [Text.Hex.decode_eq_ok_iff fun c hc => Text.isSmall_of_mem_digits hc]
    constructor
    · intro h
      refine ⟨Int.natCast_nonneg m, ?_, h.symm⟩
      have hlength := Text.Hex.length_encode key
      rw [← h, Text.Hex.length_utf8 fun c hc => Text.isSmall_of_mem_digits hc] at hlength
      exact ⟨key.length, hlength⟩
    · exact fun h => h.2.2.symm

/-- One of two tokens is a number without a sign, of an even number of digits, and the other one is
these digits read as bytes. -/
def IsMistaken (token other : Token) : Prop :=
  ∃ n key, (token = long n ∧ other = bytes key ∨ token = bytes key ∧ other = long n) ∧
    0 ≤ n.toInt ∧ 2 ∣ (Text.digits n.toInt.toNat).length ∧
      Text.Hex.decode (Text.Utf8.encode (Text.digits n.toInt.toNat)) = .ok key

end Token

namespace Partitioner

/-- A token is of the sort that a partitioner gives to keys. -/
def Produces : Partitioner → Token → Prop
  | hashed, .long _ => True
  | byteOrdered, .bytes _ => True
  | hashed, .bytes _ => False
  | byteOrdered, .long _ => False

instance : (partitioner : Partitioner) → (token : Token) → Decidable (partitioner.Produces token)
  | hashed, .long _ => .isTrue trivial
  | byteOrdered, .bytes _ => .isTrue trivial
  | hashed, .bytes _ => .isFalse id
  | byteOrdered, .long _ => .isFalse id

theorem produces_tokenOf (partitioner : Partitioner) (key : Bytes) :
    partitioner.Produces (partitioner.tokenOf key) := by
  cases partitioner <;> exact trivial

/-- Of the sort of one partitioner, different tokens have different texts. -/
theorem text_inj {partitioner : Partitioner} {token other : Token}
    (h : partitioner.Produces token) (hother : partitioner.Produces other) :
    token.text = other.text ↔ token = other := by
  cases partitioner <;> cases token <;> cases other <;> simp only [Produces] at h hother
  · rw [Token.text_long_inj, Token.long.injEq]
  · rw [Token.text_bytes_inj, Token.bytes.injEq]

/-- A token of a partitioner has the text of a token of the other sort only if it is mistaken for
it. -/
theorem text_eq_iff_isMistaken {partitioner : Partitioner} {token other : Token}
    (h : partitioner.Produces token) (hother : ¬ partitioner.Produces other) :
    token.text = other.text ↔ token.IsMistaken other := by
  cases partitioner <;> cases token <;> cases other <;>
    simp only [Produces, not_true_eq_false] at h hother
  · rw [Token.text_long_eq_text_bytes_iff]
    constructor
    · exact fun h => ⟨_, _, .inl ⟨rfl, rfl⟩, h⟩
    · rintro ⟨n, key, ⟨⟨rfl⟩, ⟨rfl⟩⟩ | ⟨⟨⟩, -⟩, h⟩
      exact h
  · rw [eq_comm, Token.text_long_eq_text_bytes_iff]
    constructor
    · exact fun h => ⟨_, _, .inr ⟨rfl, rfl⟩, h⟩
    · rintro ⟨n, key, ⟨⟨⟩, -⟩ | ⟨⟨rfl⟩, ⟨rfl⟩⟩, h⟩
      exact h

end Partitioner

end RingScan
