import RingScan.Proofs.Ring.Text
import RingScan.Proofs.Text.Numeral

/-!
# Tokens read back

A partitioner that hashes keys reads a text as a decimal number, and one that keeps keys in the
order of their bytes reads it as hexadecimal digits; blanks around the text make no difference.
Which texts it accepts, and what it makes of them, is known without the reader: the text spells a
token, or it is refused.  The text of a token spells the token.

## Main definitions

* `Partitioner.Spells`: the token that a text without blanks around it spells.

## Main statements

* `Partitioner.readToken_eq_ok_iff`: which texts are accepted, and for which tokens.
* `Partitioner.readToken_text`: the text of a token is read as the token.
-/

namespace RingScan.Partitioner

/-- What the texts that a partitioner accepts spell. -/
inductive Spells : Partitioner → List Char → Token → Prop
  /-- An integer of 64 bits. -/
  | number {cs : List Char} {n : ℤ} (h : Text.Denotes cs n) (hlow : -2 ^ 63 ≤ n)
      (hhigh : n < 2 ^ 63) : Spells hashed cs (.long (Int64.ofInt n))
  /-- The bytes of a key. -/
  | bytes {cs : List Char} {key : Bytes} (h : Text.Hex.Denotes cs key) :
      Spells byteOrdered cs (.bytes key)

variable {partitioner : Partitioner} {text : String} {token : Token}

theorem readToken_hashed_eq_ok_iff :
    hashed.readToken text = .ok token ↔ hashed.Spells (Text.trimChars text.toList) token := by
  have hread (n : ℤ) : Text.readInteger (Nat.pow 2 63) (Nat.pow 2 63 - 1)
      (Text.trimChars text.toList) = .ok n ↔
        Text.Denotes (Text.trimChars text.toList) n ∧ -2 ^ 63 ≤ n ∧ n < 2 ^ 63 := by
    rw [Text.readInteger_eq_ok_iff]
    refine and_congr_right fun _ => ?_
    norm_num
    omega
  rw [readToken]
  constructor
  · intro h
    split at h
    · rename_i n hn
      cases h
      obtain ⟨hdenotes, hlow, hhigh⟩ := (hread n).1 hn
      exact .number hdenotes hlow hhigh
    · cases h
  · rintro ⟨hdenotes, hlow, hhigh⟩
    rw [(hread _).2 ⟨hdenotes, hlow, hhigh⟩]

theorem readToken_byteOrdered_eq_ok_iff :
    byteOrdered.readToken text = .ok token ↔
      byteOrdered.Spells (Text.trimChars text.toList) token := by
  rw [readToken]
  constructor
  · intro h
    split at h
    · rename_i key hkey
      cases h
      exact .bytes (Text.Hex.decode_eq_ok_iff_denotes.1 hkey)
    · cases h
  · intro h
    cases h with
    | bytes hdenotes => rw [Text.Hex.decode_eq_ok_iff_denotes.2 hdenotes]

/-- A partitioner reads from a text the token that the text spells without the blanks around it. -/
theorem readToken_eq_ok_iff :
    partitioner.readToken text = .ok token ↔
      partitioner.Spells (Text.trimChars text.toList) token := by
  cases partitioner
  · exact readToken_hashed_eq_ok_iff
  · exact readToken_byteOrdered_eq_ok_iff

/-- Bytes are spelled by an even number of hexadecimal digits. -/
theorem exists_spells_byteOrdered_iff {cs : List Char} :
    (∃ token, byteOrdered.Spells cs token) ↔
      2 ∣ cs.length ∧ ∀ c ∈ cs, Text.Hex.isDigit c = true := by
  rw [← Text.Hex.exists_denotes_iff]
  constructor
  · rintro ⟨_, h⟩
    cases h with
    | bytes h => exact ⟨_, h⟩
  · rintro ⟨key, h⟩
    exact ⟨_, .bytes h⟩

/-! ### Texts of tokens -/

theorem isBlank_of_mem_integer {n : ℤ} {c : Char} (h : c ∈ Text.integer n) :
    Text.isBlank c = false := by
  cases n with
  | ofNat m => exact Text.isBlank_of_mem_digits h
  | negSucc m =>
    rcases List.mem_cons.1 h with rfl | h
    · decide
    · exact Text.isBlank_of_mem_digits h

/-- The text of a token spells it. -/
theorem spells_text (h : partitioner.Produces token) :
    partitioner.Spells (Text.trimChars token.text.toList) token := by
  cases partitioner <;> cases token <;> simp only [Produces] at h
  · rename_i n
    rw [Token.text, String.toList_ofList,
      Text.trimChars_eq_self fun _ => isBlank_of_mem_integer]
    have hspells := Spells.number (Text.denotes_integer n.toInt) n.le_toInt n.toInt_lt
    rwa [Int64.ofInt_toInt] at hspells
  · rename_i key
    rw [Token.text, Text.Hex.text, String.toList_ofList, Text.trimChars_eq_self]
    · exact .bytes (Text.Hex.denotes_encode key)
    · intro c hc
      obtain ⟨n, hn, rfl⟩ := Text.Hex.exists_digit_of_mem hc
      exact (Text.Hex.digit_plain hn).2

/-- The text of a token is read as the token. -/
theorem readToken_text (h : partitioner.Produces token) :
    partitioner.readToken token.text = .ok token :=
  readToken_eq_ok_iff.2 (spells_text h)

end RingScan.Partitioner
