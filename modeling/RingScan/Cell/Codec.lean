import RingScan.Cell.BigEndian
import RingScan.Failure

/-!
# Cells

The raw form of a value in a column: integers and reals with a fixed number of bytes, the most
significant first, texts in UTF-8, everything else as the bytes that it is.

## Main definitions

* `ColumnType.encode`: the cell of a value in a column of the type.
* `ColumnType.decode`: the value of a cell of a column of the type.
-/

namespace RingScan.ColumnType

/-- The cell of an integer, given the bytes of a cell of the type. -/
def encodeInteger (type : ColumnType) (width : Nat) (value : Value) : Except EncodingFault Bytes :=
  match value.integer? with
  | some n => if Cell.fits width n then .ok (Cell.ofInteger width n)
    else .error (.mismatch value.kind type)
  | none => .error (.mismatch value.kind type)

/-- The cell of a value in a column of the type.  A column of integers takes every integer that
fits, a column of 64-bit reals also 32-bit ones. -/
def encode (type : ColumnType) (value : Value) : Except EncodingFault Bytes :=
  match type, value with
  | .ascii, .text s =>
    if s.toList.all (·.toNat < 128) then .ok (Text.Utf8.bytes s)
    else .error (.mismatch value.kind type)
  | .text, .text s => .ok (Text.Utf8.bytes s)
  | .boolean, .boolean b => .ok [if b then 1 else 0]
  | .double, .double x => .ok (Cell.bigEndian 8 x.bits.toNat)
  | .double, .float x => .ok (Cell.bigEndian 8 x.widen.bits.toNat)
  | .float, .float x => .ok (Cell.bigEndian 4 x.bits.toNat)
  | .blob, .blob bytes => .ok bytes
  | .uuid, .uuid s => (Uuid.read s).mapError (.notUuid s)
  | .timeUuid, .uuid s => (Uuid.read s).mapError (.notUuid s)
  | .inet, .inet a => .ok a.bytes
  | type, value =>
    match type.integerWidth? with
    | some width => type.encodeInteger width value
    | none => .error (.mismatch value.kind type)

/-- The value that `make` makes of a cell of `expected` bytes. -/
def fixed (type : ColumnType) (expected : Nat) (raw : Bytes) (make : Value) :
    Except EncodingFault Value :=
  if raw.length = expected then .ok make else .error (.width type expected raw.length)

/-- The text of a cell. -/
def decodeText (raw : Bytes) : Except EncodingFault Value :=
  match Text.Utf8.decode raw with
  | .ok cs => .ok (.text (String.ofList cs))
  | .error fault => .error (.notText fault)

/-- The value of a cell of a column of the type. -/
def decode (type : ColumnType) (raw : Bytes) : Except EncodingFault Value :=
  match type with
  | ascii => decodeText raw
  | text => decodeText raw
  | bigInt => type.fixed 8 raw (.bigInt (Int64.ofInt (Cell.toInteger raw)))
  | counter => type.fixed 8 raw (.bigInt (Int64.ofInt (Cell.toInteger raw)))
  | timestamp => type.fixed 8 raw (.timestamp (Int64.ofInt (Cell.toInteger raw)))
  | int => type.fixed 4 raw (.int (Int32.ofInt (Cell.toInteger raw)))
  | smallInt => type.fixed 2 raw (.smallInt (Int16.ofInt (Cell.toInteger raw)))
  | tinyInt => type.fixed 1 raw (.tinyInt (Int8.ofInt (Cell.toInteger raw)))
  | boolean => type.fixed 1 raw (.boolean (raw != [0]))
  | double => type.fixed 8 raw (.double ⟨UInt64.ofNat (Cell.ofBigEndian raw)⟩)
  | float => type.fixed 4 raw (.float ⟨UInt32.ofNat (Cell.ofBigEndian raw)⟩)
  | blob => .ok (.blob raw)
  | uuid => type.fixed 16 raw (.uuid (String.ofList (Uuid.write raw)))
  | timeUuid => type.fixed 16 raw (.uuid (String.ofList (Uuid.write raw)))
  | inet =>
    match Inet.Address.ofBytes? raw with
    | some a => .ok (.inet a)
    | none => .error (.addressWidth raw.length)

end RingScan.ColumnType
