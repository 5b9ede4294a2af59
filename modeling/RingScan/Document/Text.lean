import RingScan.Document.Basic
import RingScan.Text.Hex

/-!
# Texts of a document

A text stands between double quotes.  A quote, a backslash and the control characters are written
as escapes; a reader also knows the escape of any code unit and puts the two units of a character
outside the basic plane together.

## Main definitions

* `Document.writeText`: a text as it is written.
* `Document.escape`: the character that an escape stands for.
* `Document.textFrom`: the characters up to the closing quote.
-/

namespace RingScan.Document

/-- The escape of a control character that has a letter of its own. -/
def controlLetter? (c : Char) : Option Char :=
  if c = '\x08' then some 'b'
  else if c = '\x0c' then some 'f'
  else if c = '\n' then some 'n'
  else if c = '\r' then some 'r'
  else if c = '\t' then some 't'
  else none

/-- A character as it is written inside a text. -/
def writeChar (c : Char) : List Char :=
  if c = '"' ∨ c = '\\' then ['\\', c]
  else match controlLetter? c with
    | some letter => ['\\', letter]
    | none =>
      if c.toNat < 0x20 then
        ['\\', 'u', '0', '0', Text.Hex.digit (c.toNat / 16), Text.Hex.digit (c.toNat % 16)]
      else [c]

/-- A text as it is written. -/
def writeText (s : String) : List Char :=
  '"' :: (s.toList.flatMap writeChar ++ ['"'])

/-- The character that a one-letter escape stands for. -/
def letterEscape? (c : Char) : Option Char :=
  if c = '"' ∨ c = '\\' ∨ c = '/' then some c
  else if c = 'b' then some '\x08'
  else if c = 'f' then some '\x0c'
  else if c = 'n' then some '\n'
  else if c = 'r' then some '\r'
  else if c = 't' then some '\t'
  else none

/-- The code unit of four hexadecimal digits.  Less than four bytes of remaining text break off;
any other failure is a malformed escape. -/
def codeUnit : Reader Nat
  | a :: b :: c :: d :: s =>
    match Text.Hex.value? a, Text.Hex.value? b, Text.Hex.value? c, Text.Hex.value? d with
    | some a, some b, some c, some d => .ok (((a * 16 + b) * 16 + c) * 16 + d, s)
    | _, _, _, _ => .error .malformed
  | s => if 4 ≤ Text.Utf8.size s then .error .malformed else .error .truncated

/-- A code unit that opens a pair. -/
def isHigh (n : Nat) : Bool :=
  0xD800 ≤ n && n < 0xDC00

/-- A code unit that closes a pair. -/
def isLow (n : Nat) : Bool :=
  0xDC00 ≤ n && n < 0xE000

/-- The character of a code unit, or of the pair that it opens. -/
def codeEscape : Reader Char := fun s => do
  let (n, s) ← codeUnit s
  if isLow n then .error .malformed
  else if isHigh n then
    match s with
    | [] => .error .truncated
    | ['\\'] => .error .truncated
    | '\\' :: 'u' :: s => do
      let (m, s) ← codeUnit s
      if isLow m then .ok (Char.ofNat (0x10000 + (n - 0xD800) * 0x400 + (m - 0xDC00)), s)
      else .error .malformed
    | _ => .error .malformed
  else .ok (Char.ofNat n, s)

/-- The character that an escape stands for, after its backslash. -/
def escape : Reader Char
  | [] => .error .truncated
  | 'u' :: s => codeEscape s
  | c :: s =>
    match letterEscape? c with
    | some d => .ok (d, s)
    | none => .error .malformed

theorem length_of_codeUnit {s r : List Char} {n : Nat} (h : codeUnit s = .ok (n, r)) :
    r.length < s.length := by
  unfold codeUnit at h
  split at h
  · split at h
    · simp only [Except.ok.injEq, Prod.mk.injEq] at h
      obtain ⟨-, rfl⟩ := h
      simp only [List.length_cons]
      omega
    · cases h
  · split at h <;> cases h

theorem length_of_codeEscape {s r : List Char} {c : Char} (h : codeEscape s = .ok (c, r)) :
    r.length < s.length := by
  unfold codeEscape at h
  cases hu : codeUnit s with
  | error e => rw [hu] at h; cases h
  | ok p =>
    obtain ⟨n, t⟩ := p
    have ht := length_of_codeUnit hu
    rw [hu] at h
    simp only [bind, Except.bind] at h
    split at h
    · cases h
    · split at h
      · split at h
        · cases h
        · cases h
        · rename_i t'
          cases hv : codeUnit t' with
          | error e => rw [hv] at h; cases h
          | ok q =>
            obtain ⟨m, t''⟩ := q
            have ht' := length_of_codeUnit hv
            rw [hv] at h
            simp only at h
            split at h
            · simp only [Except.ok.injEq, Prod.mk.injEq] at h
              obtain ⟨-, rfl⟩ := h
              simp only [List.length_cons] at ht
              omega
            · cases h
        · cases h
      · simp only [Except.ok.injEq, Prod.mk.injEq] at h
        obtain ⟨-, rfl⟩ := h
        exact ht

/-- An escape takes at least one character. -/
theorem length_of_escape {s r : List Char} {c : Char} (h : escape s = .ok (c, r)) :
    r.length < s.length := by
  unfold escape at h
  split at h
  · cases h
  · have := length_of_codeEscape h
    simp only [List.length_cons]
    omega
  · split at h
    · simp only [Except.ok.injEq, Prod.mk.injEq] at h
      obtain ⟨-, rfl⟩ := h
      simp only [List.length_cons]
      omega
    · cases h

/-- The characters of a text up to its closing quote. -/
def textFrom : Reader (List Char)
  | [] => .error .truncated
  | c :: s =>
    if c = '"' then .ok ([], s)
    else if c = '\\' then
      match h : escape s with
      | .error fault => .error fault
      | .ok (d, rest) =>
        have := length_of_escape h
        (textFrom rest).map (fun p => (d :: p.1, p.2))
    else if c.toNat < 0x20 then .error .malformed
    else (textFrom s).map (fun p => (c :: p.1, p.2))
  termination_by s => s.length

end RingScan.Document
