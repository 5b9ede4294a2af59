import RingScan.Proofs.Text.Digits
import RingScan.Value.Literal

/-!
# Quiet texts

A literal stands in a statement as it is written.  Whatever is written without quotes is quiet: it
consists of letters, digits and a few signs, so it neither opens a quote nor adds a mark to the
statement, whichever number, bytes or address it stands for.  The text of an address is quiet too,
which is why its quotes need no doubling inside.

## Main definitions

* `Text.Quiet`: a text without quotes and marks.

## Main statements

* `Text.quiet_integer`, `Text.Hex.quiet_encode`, `Uuid.quiet_write`, `Inet.Address.quiet_write`,
  `Decimal.Style.quiet_write`: the texts of numbers, bytes, identifiers and addresses are quiet.
-/

namespace RingScan

/-! ### Texts without quotes and marks -/

namespace Text

/-- There is neither a quote of any kind nor a mark in a text. -/
def Quiet (cs : List Char) : Prop :=
  ∀ c ∈ cs, c ≠ '"' ∧ c ≠ '\'' ∧ c ≠ '?'

instance (cs : List Char) : Decidable (Quiet cs) :=
  List.decidableBAll (fun c => c ≠ '"' ∧ c ≠ '\'' ∧ c ≠ '?') cs

namespace Quiet

variable {cs ds : List Char}

theorem append (hc : Quiet cs) (hd : Quiet ds) : Quiet (cs ++ ds) :=
  List.forall_mem_append.2 ⟨hc, hd⟩

theorem subset (hc : Quiet cs) (h : ds ⊆ cs) : Quiet ds :=
  fun c hmem => hc c (h hmem)

theorem replicate {c : Char} (hc : Quiet [c]) (n : ℕ) : Quiet (List.replicate n c) := by
  intro d hmem
  rw [List.eq_of_mem_replicate hmem]
  exact hc c (List.mem_singleton_self c)

theorem intercalate {separator : List Char} {texts : List (List Char)}
    (hseparator : Quiet separator) (htexts : ∀ text ∈ texts, Quiet text) :
    Quiet (separator.intercalate texts) := by
  induction texts with
  | nil => exact fun c hmem => absurd hmem List.not_mem_nil
  | cons first texts ih =>
    cases texts with
    | nil =>
      rw [List.intercalate_singleton]
      exact htexts first List.mem_cons_self
    | cons second texts =>
      rw [List.intercalate_cons_cons]
      exact ((htexts first List.mem_cons_self).append hseparator).append
        (ih fun text hmem => htexts text (List.mem_cons_of_mem _ hmem))

/-- A text without quotes is not changed by writing its quotes twice. -/
theorem doubled_eq (hc : Quiet cs) : doubled '\'' cs = cs := by
  induction cs with
  | nil => rfl
  | cons c cs ih =>
    obtain ⟨⟨-, hliteral, -⟩, hcs⟩ := List.forall_mem_cons.1 hc
    rw [doubled, if_neg hliteral, ih hcs]

end Quiet

/-! ### Numbers -/

/-- Digits are neither quotes nor marks. -/
theorem quiet_of_isDigit {cs : List Char} (h : ∀ c ∈ cs, Hex.isDigit c = true) : Quiet cs := by
  intro c hmem
  have hdigit := h c hmem
  refine ⟨?_, ?_, ?_⟩ <;> rintro rfl <;> exact absurd hdigit (by decide)

theorem quiet_digits (n : ℕ) : Quiet (digits n) :=
  quiet_of_isDigit fun _ hmem => Hex.isDigit_of_char_isDigit (isDigit_of_mem_digits hmem)

theorem quiet_integer (n : ℤ) : Quiet (integer n) := by
  cases n with
  | ofNat n => exact quiet_digits n
  | negSucc n =>
    have hsign : Quiet ['-'] := by decide
    exact hsign.append (quiet_digits (n + 1))

private theorem quiet_toDigits (n : ℕ) : Quiet (Nat.toDigits 16 n) :=
  quiet_of_isDigit fun _ => Hex.isDigit_of_mem_toDigits

/-! ### Bytes -/

theorem Hex.quiet_encode (bytes : Bytes) : Quiet (encode bytes) := by
  refine quiet_of_isDigit fun c hmem => ?_
  obtain ⟨n, hn, rfl⟩ := exists_digit_of_mem hmem
  exact isDigit_digit hn

end Text

open Text (Quiet)

theorem Uuid.quiet_write (bytes : Bytes) : Quiet (write bytes) := by
  have hdigits : Quiet (Text.Hex.encode bytes) := Text.Hex.quiet_encode bytes
  have hhyphen : Quiet ['-'] := by decide
  have hpart (n count : ℕ) : Quiet (((Text.Hex.encode bytes).drop n).take count) :=
    (hdigits.subset (List.drop_subset n _)).subset (List.take_subset count _)
  have hlast : Quiet ((Text.Hex.encode bytes).drop 20) := hdigits.subset (List.drop_subset _ _)
  exact (hpart 0 8).append (hhyphen.append ((hpart 8 4).append (hhyphen.append
    ((hpart 12 4).append (hhyphen.append ((hpart 16 4).append (hhyphen.append hlast)))))))

/-! ### Addresses -/

namespace Inet

private theorem quiet_writeShort (bytes : Bytes) : Quiet (writeShort bytes) := by
  refine Quiet.intercalate (by decide) fun text hmem => ?_
  obtain ⟨b, -, rfl⟩ := List.mem_map.1 hmem
  exact Text.quiet_digits b.toNat

private theorem quiet_writeGroups (groups : List ℕ) : Quiet (writeGroups groups) := by
  refine Quiet.intercalate (by decide) fun text hmem => ?_
  obtain ⟨g, -, rfl⟩ := List.mem_map.1 hmem
  exact Text.quiet_toDigits g

theorem Address.quiet_write (a : Address) : Quiet a.write := by
  have hmapped : Quiet "::ffff:".toList := by decide
  have hgap : Quiet [':', ':'] := by decide
  unfold write
  dsimp only
  split
  · exact quiet_writeShort a.bytes
  · split
    · exact hmapped.append (quiet_writeShort _)
    · split
      · exact (quiet_writeGroups _).append (hgap.append (quiet_writeGroups _))
      · exact quiet_writeGroups a.groups

end Inet

/-! ### Reals -/

namespace Decimal

private theorem Digits.quiet_positional {d : Digits} (h : Quiet d.digits) :
    Quiet (d.positional false) := by
  have hzero : Quiet ['0'] := by decide
  have hpoint : Quiet ['.'] := by decide
  unfold positional
  cases d.exponent with
  | ofNat e =>
    have hpadded : Quiet (d.digits.take (e + 1) ++
        List.replicate (e + 1 - (d.digits.take (e + 1)).length) '0') :=
      (h.subset (List.take_subset _ _)).append (hzero.replicate _)
    dsimp only
    split
    · exact hpadded
    · exact hpadded.append (hpoint.append (h.subset (List.drop_subset _ _)))
  | negSucc e =>
    exact hzero.append (hpoint.append ((hzero.replicate e).append h))

private theorem Format.quiet_shortest (f : Format) (tie : Tie) (m : ℕ) (q : ℤ) :
    Quiet (f.shortest tie m q).digits := by
  let x := f.neighbourhood m q
  have hall : Quiet (Text.digits (x.search tie x.magnitude 1 f.mostDigits).1) := Text.quiet_digits _
  exact hall.subset fun c hmem =>
    List.mem_reverse.1 (List.dropWhile_subset _ (List.mem_reverse.1 hmem))

/-- A real in a statement is written without quotes and marks. -/
theorem Style.quiet_write (f : Format) (bits : ℕ) : Quiet (Value.literalStyle.write f bits) := by
  have hnan : Quiet "NaN".toList := by decide
  have hinfinity : Quiet "inf".toList := by decide
  have hsign : Quiet ['-'] := by decide
  unfold write
  cases f.read bits with
  | nan => exact hnan
  | infinite negative =>
    cases negative with
    | false => exact hinfinity
    | true => exact hsign.append hinfinity
  | finite negative m q =>
    have hdigits : Quiet (if m = 0 then ⟨['0'], 0⟩ else
        f.shortest Value.literalStyle.tie m q : Digits).digits := by
      split
      · decide
      · exact f.quiet_shortest _ m q
    have htext := Digits.quiet_positional hdigits
    cases negative with
    | false => exact htext
    | true => exact hsign.append htext

end Decimal

end RingScan
