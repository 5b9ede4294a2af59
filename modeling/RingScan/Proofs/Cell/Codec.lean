import RingScan.Cell.Codec
import RingScan.Proofs.Cell.BigEndian
import RingScan.Proofs.Text.Utf8
import RingScan.Proofs.Uuid

/-!
# Values and their cells

What a value stands for in a column is found again in its cell: the value that is read from the cell
has the kind of the column and stands for the same, and it has the same cell.  A cell that can be
read is also the cell of what is read, with two exceptions: every byte but zero is read as true,
which is written as one, and a column of ASCII texts reads any text and writes ASCII ones only.

## Main definitions

* `ColumnType.kind`: the kind of the values that are read from a column.
* `ColumnType.Datum`, `ColumnType.datum?`: what a value stands for in a column.
* `ColumnType.Admits`: the cells that can be read.
* `ColumnType.Encodes`: the values and their cells.

## Main statements

* `ColumnType.encode_eq_ok_iff`: which values have a cell, and which one.
* `ColumnType.decode_encode_inverse`: values from cells and cells from values.
-/

namespace RingScan.ColumnType

/-- The kind of the values that are read from a column of a type. -/
def kind : ColumnType → Value.Kind
  | ascii | text => .text
  | bigInt | counter => .bigInt
  | int => .int
  | smallInt => .smallInt
  | tinyInt => .tinyInt
  | timestamp => .timestamp
  | boolean => .boolean
  | double => .double
  | float => .float
  | blob => .blob
  | uuid | timeUuid => .uuid
  | inet => .inet

/-- What values of different kinds may stand for. -/
inductive Datum where
  /-- A text. -/
  | text (s : String)
  /-- An integer. -/
  | integer (n : ℤ)
  /-- A truth value. -/
  | truth (b : Bool)
  /-- A 64-bit real. -/
  | double (x : Double)
  /-- A 32-bit real. -/
  | single (x : Single)
  /-- Raw bytes. -/
  | raw (bytes : Bytes)
  /-- The bytes of an identifier. -/
  | identifier (bytes : Bytes)
  /-- A network address. -/
  | address (a : Inet.Address)

/-- What a value stands for in a column of a type.  A 32-bit real is widened in a column of 64-bit
ones. -/
def datum? (type : ColumnType) : Value → Option Datum
  | .text s => some (.text s)
  | .bigInt n | .timestamp n => some (.integer n.toInt)
  | .int n => some (.integer n.toInt)
  | .smallInt n => some (.integer n.toInt)
  | .tinyInt n => some (.integer n.toInt)
  | .boolean b => some (.truth b)
  | .double x => some (.double x)
  | .float x => some (if type = double then .double x.widen else .single x)
  | .blob bytes => some (.raw bytes)
  | .uuid s => (Uuid.read s).toOption.map .identifier
  | .inet a => some (.address a)
  | .list _ => none

/-- The cells that can be read in a column of a type: those of its width, or those that are the
bytes of a text. -/
def Admits (type : ColumnType) (raw : Bytes) : Prop :=
  match type with
  | ascii | text => ∃ s, Text.Utf8.bytes s = raw
  | blob => True
  | boolean | tinyInt => raw.length = 1
  | smallInt => raw.length = 2
  | int | float => raw.length = 4
  | bigInt | counter | timestamp | double => raw.length = 8
  | uuid | timeUuid => raw.length = 16
  | inet => raw.length = 4 ∨ raw.length = 16

/-- A value and its cell in a column of a type. -/
inductive Encodes : ColumnType → Value → Bytes → Prop where
  | ascii {s : String} (h : s.toList.all (·.toNat < 128) = true) :
    Encodes ascii (.text s) (Text.Utf8.bytes s)
  | text (s : String) : Encodes text (.text s) (Text.Utf8.bytes s)
  | integer {type : ColumnType} {width : ℕ} {value : Value} {n : ℤ}
    (hwidth : type.integerWidth? = some width) (hn : value.integer? = some n)
    (hfits : Cell.fits width n = true) : Encodes type value (Cell.ofInteger width n)
  | boolean (b : Bool) : Encodes boolean (.boolean b) [if b then 1 else 0]
  | double (x : Double) : Encodes double (.double x) (Cell.bigEndian 8 x.bits.toNat)
  | widened (x : Single) : Encodes double (.float x) (Cell.bigEndian 8 x.widen.bits.toNat)
  | float (x : Single) : Encodes float (.float x) (Cell.bigEndian 4 x.bits.toNat)
  | blob (bytes : Bytes) : Encodes blob (.blob bytes) bytes
  | uuid {type : ColumnType} {s : String} {raw : Bytes} (htype : type = uuid ∨ type = timeUuid)
    (h : Uuid.read s = .ok raw) : Encodes type (.uuid s) raw
  | inet (a : Inet.Address) : Encodes inet (.inet a) a.bytes

/-! ### Integers -/

section Integers

variable {type : ColumnType} {width : ℕ}

theorem encode_of_integer {value : Value} {n : ℤ} (hwidth : type.integerWidth? = some width)
    (hn : value.integer? = some n) :
    type.encode value = if Cell.fits width n then .ok (Cell.ofInteger width n)
      else .error (.mismatch value.kind type) := by
  have hall : type.encode value = type.encodeInteger width value := by
    cases type <;> cases hwidth <;> rfl
  rw [hall, encodeInteger, hn]

theorem encode_of_not_integer {value : Value} (hwidth : type.integerWidth? = some width)
    (hn : value.integer? = none) : type.encode value = .error (.mismatch value.kind type) := by
  have hall : type.encode value = type.encodeInteger width value := by
    cases type <;> cases hwidth <;> rfl
  rw [hall, encodeInteger, hn]

theorem datum?_of_integer {value : Value} {n : ℤ} (hn : value.integer? = some n) :
    type.datum? value = some (.integer n) := by
  cases value <;> cases hn <;> rfl

theorem width_pos (hwidth : type.integerWidth? = some width) : 0 < width := by
  cases type <;> cases hwidth <;> decide

/-- A cell of the width of an integer type is read as the integer that it holds. -/
theorem exists_decode_of_integer (hwidth : type.integerWidth? = some width) {raw : Bytes}
    (hraw : raw.length = width) :
    ∃ value, type.decode raw = .ok value ∧ value.kind = type.kind ∧
      value.integer? = some (Cell.toInteger raw) := by
  have hne : raw ≠ [] := List.length_pos_iff.1 (hraw ▸ width_pos hwidth)
  have hfits := Cell.fits_iff.1 (Cell.fits_toInteger hne)
  rw [hraw] at hfits
  obtain ⟨hlow, hhigh⟩ := hfits
  cases type <;> cases hwidth
  case bigInt | counter | timestamp =>
    exact ⟨_, if_pos hraw, rfl, congrArg some (Int64.toInt_ofInt_of_le hlow hhigh)⟩
  case int => exact ⟨_, if_pos hraw, rfl, congrArg some (Int32.toInt_ofInt_of_le hlow hhigh)⟩
  case smallInt => exact ⟨_, if_pos hraw, rfl, congrArg some (Int16.toInt_ofInt_of_le hlow hhigh)⟩
  case tinyInt => exact ⟨_, if_pos hraw, rfl, congrArg some (Int8.toInt_ofInt_of_le hlow hhigh)⟩

end Integers

/-! ### Cells of values -/

variable {type : ColumnType} {value : Value} {raw : Bytes}

/-- A value that has a cell is one of those that its column takes. -/
theorem encodes_of_encode (h : type.encode value = .ok raw) : Encodes type value raw := by
  cases hwidth : type.integerWidth? with
  | some width =>
    cases hn : value.integer? with
    | none =>
      rw [encode_of_not_integer hwidth hn] at h
      cases h
    | some n =>
      rw [encode_of_integer hwidth hn] at h
      split at h <;> cases h
      exact .integer hwidth hn ‹_›
  | none =>
    cases type with
    | bigInt | counter | timestamp | int | smallInt | tinyInt => cases hwidth
    | ascii =>
      cases value with
      | text s =>
        simp only [encode] at h
        split at h <;> cases h
        exact .ascii ‹_›
      | _ => cases h
    | text => cases value <;> cases h; exact .text _
    | boolean => cases value <;> cases h; exact .boolean _
    | double =>
      cases value with
      | double x => cases h; exact .double x
      | float x => cases h; exact .widened x
      | _ => cases h
    | float => cases value <;> cases h; exact .float _
    | blob => cases value <;> cases h; exact .blob _
    | uuid =>
      cases value with
      | uuid s => exact .uuid (.inl rfl) (Traversal.mapError_eq_ok_iff.1 h)
      | _ => cases h
    | timeUuid =>
      cases value with
      | uuid s => exact .uuid (.inr rfl) (Traversal.mapError_eq_ok_iff.1 h)
      | _ => cases h
    | inet => cases value <;> cases h; exact .inet _

theorem Encodes.encode_eq (h : Encodes type value raw) : type.encode value = .ok raw := by
  cases h with
  | ascii h => exact if_pos h
  | integer hwidth hn hfits => rw [encode_of_integer hwidth hn, if_pos hfits]
  | uuid htype h => rcases htype with rfl | rfl <;> exact congrArg (Except.mapError _) h
  | text | boolean | double | widened | float | blob | inet => rfl

/-- The values that have a cell, and their cells. -/
theorem encode_eq_ok_iff : type.encode value = .ok raw ↔ Encodes type value raw :=
  ⟨encodes_of_encode, Encodes.encode_eq⟩

/-! ### Values from cells -/

/-- The bytes of a text are read as the text. -/
theorem decodeText_bytes (s : String) : decodeText (Text.Utf8.bytes s) = .ok (.text s) := by
  rw [decodeText, Text.Utf8.bytes, Text.Utf8.decode_encode]
  simp only [String.ofList_toList]

theorem decode_bigEndian_double (x : Double) :
    double.decode (Cell.bigEndian 8 x.bits.toNat) = .ok (.double x) := by
  have hbits : x.bits.toNat < Nat.pow 256 8 := x.bits.toNat_lt
  have hback : UInt64.ofNat (Cell.ofBigEndian (Cell.bigEndian 8 x.bits.toNat)) = x.bits := by
    rw [Cell.ofBigEndian_bigEndian hbits, UInt64.ofNat_toNat]
  rw [decode, fixed, if_pos (Cell.length_bigEndian ..), hback]

theorem decode_bigEndian_float (x : Single) :
    float.decode (Cell.bigEndian 4 x.bits.toNat) = .ok (.float x) := by
  have hbits : x.bits.toNat < Nat.pow 256 4 := x.bits.toNat_lt
  have hback : UInt32.ofNat (Cell.ofBigEndian (Cell.bigEndian 4 x.bits.toNat)) = x.bits := by
    rw [Cell.ofBigEndian_bigEndian hbits, UInt32.ofNat_toNat]
  rw [decode, fixed, if_pos (Cell.length_bigEndian ..), hback]

/-- A cell that holds a value is read as a value of the kind of its column, which stands for the
same and has the same cell. -/
theorem Encodes.exists_decode (h : Encodes type value raw) :
    ∃ value', type.decode raw = .ok value' ∧ value'.kind = type.kind ∧
      (∃ datum, type.datum? value = some datum ∧ type.datum? value' = some datum) ∧
      Encodes type value' raw := by
  cases h with
  | @ascii s h => exact ⟨.text s, decodeText_bytes s, rfl, ⟨_, rfl, rfl⟩, .ascii h⟩
  | text s => exact ⟨.text s, decodeText_bytes s, rfl, ⟨_, rfl, rfl⟩, .text s⟩
  | @integer _ width _ n hwidth hn hfits =>
    obtain ⟨value', hdecode, hkind, hn'⟩ :=
      exists_decode_of_integer hwidth (Cell.length_ofInteger width n)
    rw [Cell.toInteger_ofInteger (width_pos hwidth) hfits] at hn'
    exact ⟨value', hdecode, hkind, ⟨_, datum?_of_integer hn, datum?_of_integer hn'⟩,
      .integer hwidth hn' hfits⟩
  | boolean b => exact ⟨.boolean b, by cases b <;> rfl, rfl, ⟨_, rfl, rfl⟩, .boolean b⟩
  | double x => exact ⟨.double x, decode_bigEndian_double x, rfl, ⟨_, rfl, rfl⟩, .double x⟩
  | widened x =>
    exact ⟨.double x.widen, decode_bigEndian_double x.widen, rfl, ⟨_, rfl, rfl⟩, .double x.widen⟩
  | float x => exact ⟨.float x, decode_bigEndian_float x, rfl, ⟨_, rfl, rfl⟩, .float x⟩
  | blob => exact ⟨_, rfl, rfl, ⟨_, rfl, rfl⟩, .blob raw⟩
  | @uuid _ s _ htype h =>
    have hlength := Uuid.length_of_read h
    have hback := Uuid.read_write hlength
    refine ⟨.uuid (String.ofList (Uuid.write raw)), ?_, ?_, ⟨.identifier raw, ?_, ?_⟩,
      .uuid htype hback⟩
    · rcases htype with rfl | rfl <;> exact if_pos hlength
    · rcases htype with rfl | rfl <;> rfl
    · rw [datum?, h]
      rfl
    · rw [datum?, hback]
      rfl
  | inet a =>
    refine ⟨.inet a, ?_, rfl, ⟨_, rfl, rfl⟩, .inet a⟩
    rw [decode, Inet.Address.ofBytes?, dif_pos a.size_eq]

/-! ### Cells that can be read -/

private theorem fixed_eq_error_iff {expected : ℕ} {make : Value} :
    (∃ fault, type.fixed expected raw make = .error fault) ↔ ¬ raw.length = expected := by
  unfold fixed
  split
  · rename_i h
    exact iff_of_false nofun (not_not_intro h)
  · rename_i h
    exact iff_of_true ⟨_, rfl⟩ h

private theorem decodeText_eq_error_iff :
    (∃ fault, decodeText raw = .error fault) ↔ ¬ ∃ s, Text.Utf8.bytes s = raw := by
  cases h : Text.Utf8.decode raw with
  | ok cs =>
    have hraw : Text.Utf8.bytes (String.ofList cs) = raw := by
      rw [Text.Utf8.bytes, String.toList_ofList, Text.Utf8.decode_eq_ok_iff.1 h]
    rw [← hraw, decodeText_bytes]
    exact iff_of_false nofun (not_not_intro ⟨_, rfl⟩)
  | error fault =>
    refine iff_of_true ⟨.notText fault, by rw [decodeText, h]⟩ ?_
    rintro ⟨s, rfl⟩
    cases h.symm.trans (Text.Utf8.decode_encode s.toList)

/-- The cells that cannot be read are those of another width than the type has, and those that are
not the bytes of a text. -/
theorem decode_eq_error_iff : (∃ fault, type.decode raw = .error fault) ↔ ¬ type.Admits raw := by
  cases type with
  | ascii | text => exact decodeText_eq_error_iff
  | blob => exact iff_of_false nofun (not_not_intro trivial)
  | inet =>
    simp only [decode, Inet.Address.ofBytes?, Admits]
    split_ifs with h
    · exact iff_of_false nofun (not_not_intro h)
    · exact iff_of_true ⟨_, rfl⟩ h
  | _ => exact fixed_eq_error_iff

theorem admits_of_decode (h : type.decode raw = .ok value) : type.Admits raw := by
  by_contra hnot
  obtain ⟨fault, hfault⟩ := decode_eq_error_iff.2 hnot
  cases h.symm.trans hfault

/-- What is read from a cell has this cell, unless it is a truth value that is not written so or a
text that is not of its column. -/
theorem encodes_of_decode (h : type.decode raw = .ok value)
    (hboolean : type = .boolean → raw = [0] ∨ raw = [1])
    (hascii : type = .ascii → ∀ b ∈ raw, b.toNat < 128) : Encodes type value raw := by
  have hadmits := admits_of_decode h
  cases hwidth : type.integerWidth? with
  | some width =>
    obtain rfl : raw.length = width := by
      cases type <;> cases hwidth <;> exact hadmits
    have hne : raw ≠ [] := List.length_pos_iff.1 (width_pos hwidth)
    obtain ⟨value', hdecode, -, hn⟩ := exists_decode_of_integer hwidth rfl
    cases h.symm.trans hdecode
    have hencodes := Encodes.integer hwidth hn (Cell.fits_toInteger hne)
    rwa [Cell.ofInteger_toInteger] at hencodes
  | none =>
    cases type with
    | bigInt | counter | timestamp | int | smallInt | tinyInt => cases hwidth
    | ascii =>
      obtain ⟨s, rfl⟩ := hadmits
      cases h.symm.trans (decodeText_bytes s)
      refine .ascii (List.all_eq_true.2 fun c hc => decide_eq_true ?_)
      exact (Text.Utf8.forall_mem_encode_iff s.toList).1 (hascii rfl) c hc
    | text =>
      obtain ⟨s, rfl⟩ := hadmits
      cases h.symm.trans (decodeText_bytes s)
      exact .text s
    | boolean =>
      rcases hboolean rfl with rfl | rfl <;> cases h
      · exact .boolean false
      · exact .boolean true
    | double =>
      cases h.symm.trans (if_pos hadmits)
      have hlt : Cell.ofBigEndian raw < UInt64.size := by
        have hlt := Cell.ofBigEndian_lt raw
        rwa [show raw.length = 8 from hadmits] at hlt
      have hback := Cell.bigEndian_ofBigEndian raw
      rw [show raw.length = 8 from hadmits, ← UInt64.toNat_ofNat_of_lt' hlt] at hback
      have hencodes := Encodes.double ⟨UInt64.ofNat (Cell.ofBigEndian raw)⟩
      rwa [hback] at hencodes
    | float =>
      cases h.symm.trans (if_pos hadmits)
      have hlt : Cell.ofBigEndian raw < UInt32.size := by
        have hlt := Cell.ofBigEndian_lt raw
        rwa [show raw.length = 4 from hadmits] at hlt
      have hback := Cell.bigEndian_ofBigEndian raw
      rw [show raw.length = 4 from hadmits, ← UInt32.toNat_ofNat_of_lt' hlt] at hback
      have hencodes := Encodes.float ⟨UInt32.ofNat (Cell.ofBigEndian raw)⟩
      rwa [hback] at hencodes
    | blob =>
      cases h
      exact .blob raw
    | uuid =>
      cases h.symm.trans (if_pos hadmits)
      exact .uuid (.inl rfl) (Uuid.read_write hadmits)
    | timeUuid =>
      cases h.symm.trans (if_pos hadmits)
      exact .uuid (.inr rfl) (Uuid.read_write hadmits)
    | inet =>
      have haddress : Inet.Address.ofBytes? raw = some ⟨raw, hadmits⟩ := dif_pos hadmits
      rw [decode, haddress] at h
      cases h
      exact .inet ⟨raw, hadmits⟩

/-- What is read from a cell has this cell, with two exceptions. -/
theorem encode_of_decode (h : type.decode raw = .ok value) :
    type.encode value =
      if type = .boolean ∧ raw ≠ [0] ∧ raw ≠ [1] then .ok [1]
      else if type = .ascii ∧ ∃ b ∈ raw, 128 ≤ b.toNat then .error (.mismatch .text .ascii)
      else .ok raw := by
  split_ifs with hboolean hascii
  · obtain ⟨rfl, hzero, -⟩ := hboolean
    cases h.symm.trans (if_pos (admits_of_decode h))
    have htrue : (raw != [0]) = true := bne_iff_ne.2 hzero
    rw [encode, htrue]
    rfl
  · obtain ⟨rfl, b, hb, hlarge⟩ := hascii
    obtain ⟨s, rfl⟩ : ∃ s, Text.Utf8.bytes s = raw := admits_of_decode h
    cases h.symm.trans (decodeText_bytes s)
    refine if_neg fun hall => absurd hlarge (Nat.not_le_of_lt ?_)
    exact (Text.Utf8.forall_mem_encode_iff s.toList).2
      (fun c hc => of_decide_eq_true (List.all_eq_true.1 hall c hc)) b hb
  · refine (encodes_of_decode h ?_ ?_).encode_eq
    · rintro rfl
      by_contra hnot
      exact hboolean ⟨rfl, not_or.1 hnot⟩
    · rintro rfl b hb
      by_contra hlarge
      exact hascii ⟨rfl, b, hb, Nat.le_of_not_lt hlarge⟩

/-- **Encoding and decoding are inverse.** A value that has a cell in a column is read from it as a
value of the kind of the column, which stands for the same and has the same cell.  What is read from
a cell is written as this cell, except that true is always written as one, and that a text with a
character that is not ASCII cannot be written in a column of ASCII texts.  An integer has a cell of
an integer type if and only if it fits the width of the type, and a cell cannot be read if and only
if it has not the width of the type or is not the bytes of a text. -/
theorem decode_encode_inverse :
    (∀ (type : ColumnType) value raw, type.encode value = .ok raw →
      ∃ value', type.decode raw = .ok value' ∧ value'.kind = type.kind ∧
        (∃ datum, type.datum? value = some datum ∧ type.datum? value' = some datum) ∧
        type.encode value' = .ok raw) ∧
    (∀ (type : ColumnType) raw value, type.decode raw = .ok value →
      type.encode value =
        if type = .boolean ∧ raw ≠ [0] ∧ raw ≠ [1] then .ok [1]
        else if type = .ascii ∧ ∃ b ∈ raw, 128 ≤ b.toNat then .error (.mismatch .text .ascii)
        else .ok raw) ∧
    (∀ (type : ColumnType) width (value : Value) n, type.integerWidth? = some width →
      value.integer? = some n →
      ((∃ raw, type.encode value = .ok raw) ↔
        -(2 : ℤ) ^ (8 * width - 1) ≤ n ∧ n < 2 ^ (8 * width - 1))) ∧
    ∀ (type : ColumnType) raw, (∃ fault, type.decode raw = .error fault) ↔ ¬ type.Admits raw := by
  refine ⟨fun type value raw h => ?_, fun type raw value h => encode_of_decode h,
    fun type width value n hwidth hn => ?_, fun type raw => decode_eq_error_iff⟩
  · obtain ⟨value', hdecode, hkind, hdatum, hencodes⟩ := (encodes_of_encode h).exists_decode
    exact ⟨value', hdecode, hkind, hdatum, hencodes.encode_eq⟩
  · rw [encode_of_integer hwidth hn, ← Cell.fits_iff]
    split_ifs with hfits
    · exact iff_of_true ⟨_, rfl⟩ hfits
    · exact iff_of_false nofun hfits

/-- A 32-bit real in a column of 64-bit ones, a byte that is read as true, a text that is not ASCII,
and the least integer of one byte and the one below it. -/
theorem decode_encode_inverse_edges :
    (double.encode (.float ⟨0x3FC00000⟩) = .ok [0x3F, 0xF8, 0, 0, 0, 0, 0, 0] ∧
      ∃ value', double.decode [0x3F, 0xF8, 0, 0, 0, 0, 0, 0] = .ok value' ∧ value'.kind = .double ∧
        double.encode value' = .ok [0x3F, 0xF8, 0, 0, 0, 0, 0, 0]) ∧
    (boolean.decode [7] = .ok (.boolean true) ∧ boolean.encode (.boolean true) = .ok [1]) ∧
    (ascii.decode [0xC3, 0xA9] = .ok (.text "é") ∧
      ascii.encode (.text "é") = .error (.mismatch .text .ascii)) ∧
    ((∃ raw, tinyInt.encode (.bigInt (-128)) = .ok raw) ∧
      ¬ ∃ raw, tinyInt.encode (.bigInt (-129)) = .ok raw) := by
  obtain ⟨hencode, hdecode, hinteger, -⟩ := decode_encode_inverse
  have hcell : double.encode (.float ⟨0x3FC00000⟩) = .ok [0x3F, 0xF8, 0, 0, 0, 0, 0, 0] := by decide
  have htrue : boolean.decode [7] = .ok (.boolean true) := by decide
  have htext : ascii.decode [0xC3, 0xA9] = .ok (.text "é") := by decide
  obtain ⟨value', hvalue, hkind, -, hback⟩ := hencode _ _ _ hcell
  refine ⟨⟨hcell, value', hvalue, hkind, hback⟩, ⟨htrue, (hdecode _ _ _ htrue).trans (by decide)⟩,
    ⟨htext, (hdecode _ _ _ htext).trans (by decide)⟩, ?_, ?_⟩
  · exact (hinteger tinyInt 1 (.bigInt (-128)) (-128) rfl rfl).2 (by decide)
  · exact mt (hinteger tinyInt 1 (.bigInt (-129)) (-129) rfl rfl).1 (by decide)

end RingScan.ColumnType
