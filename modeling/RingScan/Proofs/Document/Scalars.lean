import RingScan.Document.Collect
import RingScan.Document.Writer
import RingScan.Proofs.Text.Digits

/-!
# Scalars read back

A written value stands inside a document before a comma, before a closing bracket or at the end.
There a reader takes exactly its characters and gives the value back.  For texts this is the escape
of every single character undone; for whole numbers it is the run of their digits, which ends where
the value ends and fits 64 bits.

## Main definitions

* `Document.Ends`: what may follow a value.
* `Document.Reads`: a reader gives a value back from its written characters.

## Main statements

* `Document.reads_text`, `Document.reads_integer`, `Document.reads_natural`,
  `Document.reads_boolean`: scalars read back.
-/

namespace RingScan.Document

/-! ### Reading back -/

/-- What may follow a value inside a document: a comma, a closing bracket or nothing. -/
def Ends (rest : List Char) : Prop :=
  ∀ c, rest.head? = some c → c = ',' ∨ c = ']' ∨ c = '}'

theorem ends_nil : Ends [] := by
  intro c h
  cases h

theorem ends_cons {c : Char} {rest : List Char} (h : c = ',' ∨ c = ']' ∨ c = '}') :
    Ends (c :: rest) := by
  intro d hd
  obtain rfl : c = d := Option.some_inj.1 hd
  exact h

theorem Ends.isDigit_head? {rest : List Char} (h : Ends rest) :
    rest.head?.any Char.isDigit = false := by
  cases hhead : rest.head? with
  | none => rfl
  | some c => rcases h c hhead with rfl | rfl | rfl <;> rfl

/-- The characters start a value: a visible character that closes no list. -/
def Opens (written : List Char) : Prop :=
  ∃ c s, written = c :: s ∧ isBlank c = false ∧ c ≠ ']'

theorem opens_cons {c : Char} {s : List Char} (hblank : isBlank c = false) (hc : c ≠ ']') :
    Opens (c :: s) :=
  ⟨c, s, rfl, hblank, hc⟩

theorem skipBlank_cons {c : Char} {s : List Char} (h : isBlank c = false) :
    skipBlank (c :: s) = c :: s := by
  rw [skipBlank, List.dropWhile_cons, h, if_neg Bool.false_ne_true]

/-- The reader takes the written characters and nothing else, and gives the value. -/
structure Reads {α : Type} (reader : Reader α) (written : List Char) (x : α) : Prop where
  /-- The characters start a value. -/
  opens : Opens written
  /-- Wherever the value ends, so does the reader. -/
  reads : ∀ rest, Ends rest → reader (written ++ rest) = .ok (x, rest)

/-- A value that is read from a text by itself. -/
theorem Reads.parse {α : Type} {reader : Reader α} {written : List Char} {x : α}
    (h : Reads reader written x) : Document.parse reader (String.ofList written) = .ok x := by
  have hread := h.reads [] ends_nil
  rw [List.append_nil] at hread
  rw [Document.parse, String.toList_ofList, hread]
  rfl

/-- What is made of the values that are read. -/
theorem Reads.map {α β : Type} {reader : Reader α} {written : List Char} {x : α} (f : α → β)
    (h : Reads reader written x) :
    Reads (fun s => (reader s).map fun p => (f p.1, p.2)) written (f x) where
  opens := h.opens
  reads rest hrest := by
    rw [h.reads rest hrest]
    rfl

/-! ### Texts -/

/-- After a backslash stands an escape. -/
theorem textFrom_escape {s rest : List Char} {d : Char} (h : escape s = .ok (d, rest)) :
    textFrom ('\\' :: s) = (textFrom rest).map fun p => (d :: p.1, p.2) := by
  rw [textFrom, if_neg (by decide), if_pos rfl]
  split
  · rename_i fault hfault
    rw [h] at hfault
    cases hfault
  · rename_i d' rest' hescape
    rw [h] at hescape
    cases hescape
    rfl

theorem textFrom_plain {c : Char} {s : List Char} (hquote : c ≠ '"') (hslash : c ≠ '\\')
    (hplain : ¬ c.toNat < 0x20) :
    textFrom (c :: s) = (textFrom s).map fun p => (c :: p.1, p.2) := by
  rw [textFrom, if_neg hquote, if_neg hslash, if_neg hplain]

/-- The four digits of a control character stand for it. -/
theorem escape_control {c : Char} (h : c.toNat < 0x20) (s : List Char) :
    escape ('u' :: '0' :: '0' :: Text.Hex.digit (c.toNat / 16) :: Text.Hex.digit (c.toNat % 16) ::
      s) = .ok (c, s) := by
  have hzero : Text.Hex.value? '0' = some 0 := by decide
  have hcode : codeUnit ('0' :: '0' :: Text.Hex.digit (c.toNat / 16) ::
      Text.Hex.digit (c.toNat % 16) :: s) = .ok (c.toNat, s) := by
    rw [codeUnit, hzero, Text.Hex.value?_digit (by omega), Text.Hex.value?_digit (by omega)]
    have hsum : (0 * 16 + 0) * 16 + c.toNat / 16 = c.toNat / 16 := by omega
    simp only [hsum]
    rw [Nat.div_add_mod']
  have hlow : isLow c.toNat = false := by
    simp only [isLow, Bool.and_eq_false_iff, decide_eq_false_iff_not]
    omega
  have hhigh : isHigh c.toNat = false := by
    simp only [isHigh, Bool.and_eq_false_iff, decide_eq_false_iff_not]
    omega
  rw [escape, codeEscape, hcode]
  simp only [bind, Except.bind, hlow, hhigh, Bool.false_eq_true, if_false, Char.ofNat_toNat]

/-- The letter of a control character stands for it. -/
theorem escape_letter {c letter : Char} (h : controlLetter? c = some letter) (s : List Char) :
    escape (letter :: s) = .ok (c, s) := by
  unfold controlLetter? at h
  split at h
  · subst_vars; cases h; rfl
  split at h
  · subst_vars; cases h; rfl
  split at h
  · subst_vars; cases h; rfl
  split at h
  · subst_vars; cases h; rfl
  split at h
  · subst_vars; cases h; rfl
  · cases h

/-- A written character is read as the character. -/
theorem textFrom_writeChar (c : Char) (s : List Char) :
    textFrom (writeChar c ++ s) = (textFrom s).map fun p => (c :: p.1, p.2) := by
  unfold writeChar
  split
  case isTrue hquoted =>
    refine textFrom_escape ?_
    rcases hquoted with rfl | rfl <;> rfl
  case isFalse hquoted =>
    obtain ⟨hquote, hslash⟩ := not_or.1 hquoted
    split
    case h_1 letter hletter => exact textFrom_escape (escape_letter hletter s)
    case h_2 =>
      split
      case isTrue hcontrol => exact textFrom_escape (escape_control hcontrol s)
      case isFalse hcontrol => exact textFrom_plain hquote hslash hcontrol

/-- The written characters of a text are read up to the closing quote. -/
theorem textFrom_written (cs rest : List Char) :
    textFrom (cs.flatMap writeChar ++ '"' :: rest) = .ok (cs, rest) := by
  induction cs with
  | nil => rw [List.flatMap_nil, List.nil_append, textFrom, if_pos rfl]
  | cons c cs ih =>
    rw [List.flatMap_cons, List.append_assoc, textFrom_writeChar, ih]
    rfl

theorem text_writeText (s : String) (rest : List Char) :
    text (writeText s ++ rest) = .ok (s, rest) := by
  rw [writeText, List.cons_append, List.append_assoc, List.singleton_append, text,
    skipBlank_cons (by decide)]
  simp only
  rw [textFrom_written]
  simp only [Except.map, String.ofList_toList]

theorem reads_text (s : String) : Reads text (writeText s) s where
  opens := opens_cons (by decide) (by decide)
  reads rest _ := text_writeText s rest

/-! ### Words -/

theorem reads_boolean (b : Bool) : Reads boolean (writeBoolean b) b where
  opens := by cases b <;> exact opens_cons (by decide) (by decide)
  reads rest _ := by cases b <;> rfl

/-! ### Whole numbers -/

/-- Digits are read on from the value of the digits before them. -/
theorem significand_append {cs : List Char} {m n : ℕ} (h : significand m cs = (n, 0))
    (ds : List Char) : significand m (cs ++ ds) = significand n ds := by
  induction cs generalizing m with
  | nil =>
    cases h
    rfl
  | cons c cs ih =>
    rw [significand] at h
    rw [List.cons_append, significand]
    split at h
    · rename_i hfits
      rw [if_pos hfits]
      exact ih h
    · cases h

/-- The digits of a 64-bit number are read to their end. -/
theorem significand_digits {n : ℕ} (h : n < Nat.pow 2 64) :
    significand 0 (Text.digits n) = (n, 0) := by
  have hlast {m d : ℕ} (hd : d < 10) (hfits : m * 10 + d < Nat.pow 2 64) :
      significand m [Text.digitChar d] = (m * 10 + d, 0) := by
    have hvalue : digitValue (Text.digitChar d) = d := (Text.digitChar_spec hd).2.1
    rw [significand, hvalue, if_pos hfits, significand]
  induction n using Text.digits.induct with
  | case1 n hn =>
    rw [Text.digits, if_pos hn, hlast hn (by omega)]
    simp
  | case2 n hn ih =>
    rw [Text.digits, if_neg hn, significand_append (ih (by omega)),
      hlast (Nat.mod_lt n (by decide)) (by omega)]
    congr 1
    omega

/-- Digits after which a value ends are a whole number. -/
theorem afterDigits_of_ends {negative : Bool} {digits rest : List Char} {n : ℕ}
    (hdigits : significand 0 digits = (n, 0)) (hrest : Ends rest) :
    afterDigits negative digits rest =
      if !negative then .ok (.whole n, rest)
      else if n = 0 ∨ Nat.pow 2 63 < n then .ok (.real (Double.ofNat n).neg, rest)
      else .ok (.negative n, rest) := by
  rw [afterDigits, hdigits]
  cases rest with
  | nil => rfl
  | cons c rest =>
    rcases hrest c rfl with rfl | rfl | rfl <;> rfl

theorem unsigned_digits {negative : Bool} {n : ℕ} {rest : List Char} (hrest : Ends rest) :
    unsigned negative (Text.digits n ++ rest) =
      afterDigits negative (Text.digits n) rest := by
  have htake := Text.takeWhile_digits n hrest.isDigit_head?
  have hdrop := Text.dropWhile_digits n hrest.isDigit_head?
  cases hdigits : Text.digits n with
  | nil => exact absurd hdigits (Text.digits_ne_nil n)
  | cons c cs =>
    have hc : c.isDigit = true := Text.isDigit_of_mem_digits (hdigits ▸ List.mem_cons_self)
    rw [hdigits, List.cons_append] at htake hdrop
    rw [List.takeWhile_cons, hc, if_pos rfl] at htake
    rw [List.dropWhile_cons, hc, if_pos rfl] at hdrop
    rw [List.cons_append, unsigned.eq_def]
    split
    · rename_i heq
      cases heq
    · rename_i s heq
      obtain ⟨rfl, rfl⟩ := List.cons.inj heq
      -- A number that starts with the digit zero is zero, and no digit follows it.
      have hzero : n = 0 := Text.eq_zero_of_head?_digits (by rw [hdigits]; rfl)
      have hcs : cs = [] := by
        rw [hzero, Text.digits, if_pos (by decide)] at hdigits
        exact (List.cons.inj hdigits).2.symm
      subst hcs
      rw [List.nil_append, hrest.isDigit_head?, if_neg Bool.false_ne_true]
    · rename_i d s hne heq
      obtain ⟨rfl, rfl⟩ := List.cons.inj heq
      rw [if_pos hc, htake, hdrop]

theorem plain_of_isDigit {c : Char} (h : c.isDigit = true) :
    isBlank c = false ∧ c ≠ ']' ∧ c ≠ '-' := by
  refine ⟨?_, ?_, ?_⟩
  · cases hblank : isBlank c with
    | false => rfl
    | true =>
      simp only [isBlank, Bool.or_eq_true, beq_iff_eq] at hblank
      rcases hblank with ((rfl | rfl) | rfl) | rfl <;> exact absurd h (by decide)
  · rintro rfl
    exact absurd h (by decide)
  · rintro rfl
    exact absurd h (by decide)

theorem exists_digits (n : ℕ) : ∃ c cs, Text.digits n = c :: cs ∧ c.isDigit = true := by
  cases hdigits : Text.digits n with
  | nil => exact absurd hdigits (Text.digits_ne_nil n)
  | cons c cs =>
    exact ⟨c, cs, rfl, Text.isDigit_of_mem_digits (hdigits ▸ List.mem_cons_self)⟩

/-- The number of a document that an integer is. -/
def Number.ofInt : ℤ → Number
  | .ofNat n => .whole n
  | .negSucc n => .negative (n + 1)

/-- An integer that fits 64 bits is read to its end. -/
theorem number_writeInteger {n : ℤ} (hlow : -(Nat.pow 2 63 : ℕ) ≤ n) (hhigh : n < (Nat.pow 2 64 : ℕ))
    {rest : List Char} (hrest : Ends rest) :
    number (writeInteger n ++ rest) = .ok (Number.ofInt n, rest) := by
  cases n with
  | ofNat n =>
    obtain ⟨c, cs, hdigits, hc⟩ := exists_digits n
    have hsign : number (Text.digits n ++ rest) = unsigned false (Text.digits n ++ rest) := by
      rw [hdigits, List.cons_append, number.eq_def]
      split
      · rename_i s heq
        exact absurd (List.cons.inj heq).1 (plain_of_isDigit hc).2.2
      · rfl
    have hfits : n < Nat.pow 2 64 := Int.ofNat_lt.1 hhigh
    rw [writeInteger, Text.integer, hsign, unsigned_digits hrest,
      afterDigits_of_ends (significand_digits hfits) hrest]
    rfl
  | negSucc n =>
    have hfits : n + 1 ≤ Nat.pow 2 63 := by omega
    have hlt : n + 1 < Nat.pow 2 64 := Nat.lt_of_le_of_lt hfits (by decide)
    rw [writeInteger, Text.integer, List.cons_append, number, unsigned_digits hrest,
      afterDigits_of_ends (significand_digits hlt) hrest, Bool.not_true, if_neg Bool.false_ne_true,
      if_neg (by omega)]
    rfl

theorem exists_writeInteger (n : ℤ) :
    ∃ c s, writeInteger n = c :: s ∧ (c = '-' ∨ c.isDigit = true) := by
  cases n with
  | ofNat n =>
    obtain ⟨c, cs, hdigits, hc⟩ := exists_digits n
    exact ⟨c, cs, hdigits, .inr hc⟩
  | negSucc n => exact ⟨'-', Text.digits (n + 1), rfl, .inl rfl⟩

theorem reads_numeric {α : Type} {accept : Number → Option α} {n : ℤ} {x : α}
    (hlow : -(Nat.pow 2 63 : ℕ) ≤ n) (hhigh : n < (Nat.pow 2 64 : ℕ))
    (haccept : accept (Number.ofInt n) = some x) :
    Reads (numeric accept) (writeInteger n) x := by
  obtain ⟨c, s, hwritten, hc⟩ := exists_writeInteger n
  have hplain : isBlank c = false ∧ c ≠ ']' := by
    rcases hc with rfl | hdigit
    · exact ⟨by decide, by decide⟩
    · exact ⟨(plain_of_isDigit hdigit).1, (plain_of_isDigit hdigit).2.1⟩
  refine ⟨hwritten ▸ opens_cons hplain.1 hplain.2, fun rest hrest => ?_⟩
  have hnumber := number_writeInteger hlow hhigh hrest
  rw [hwritten, List.cons_append] at hnumber ⊢
  rw [numeric, skipBlank_cons hplain.1]
  simp only
  rw [if_pos hc, hnumber]
  simp only [bind, Except.bind, haccept]

theorem reads_integer {below above : ℕ} {n : ℤ} (hbelow : below ≤ Nat.pow 2 63)
    (habove : above < Nat.pow 2 64) (hlow : -(below : ℤ) ≤ n) (hhigh : n ≤ above) :
    Reads (integer below above) (writeInteger n) n := by
  refine reads_numeric (by omega) (by omega) ?_
  cases n with
  | ofNat n => exact if_pos (Int.ofNat_le.1 hhigh)
  | negSucc n => exact if_pos (by omega)

/-- An integer of at most eight bytes reads back over its full range. -/
theorem reads_signed (width : ℕ) {n : ℤ} (hwidth : width ≤ 8)
    (hlow : -(Nat.pow 2 (8 * width - 1) : ℕ) ≤ n) (hhigh : n < (Nat.pow 2 (8 * width - 1) : ℕ)) :
    Reads (signed width) (writeInteger n) n := by
  have hpow : Nat.pow 2 (8 * width - 1) ≤ Nat.pow 2 63 :=
    Nat.pow_le_pow_right (by decide) (by omega)
  have hlast : Nat.pow 2 63 < Nat.pow 2 64 := by decide
  exact reads_integer hpow (by omega) hlow (by omega)

theorem reads_natural {above n : ℕ} (habove : above < Nat.pow 2 64) (h : n ≤ above) :
    Reads (natural above) (writeInteger n) n := by
  refine reads_numeric (by omega) (by omega) ?_
  exact if_pos h

end RingScan.Document
