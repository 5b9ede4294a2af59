import RingScan.Document.Collect
import RingScan.Document.Writer
import RingScan.Inet.Text
import RingScan.Value.Basic

/-!
# Values in documents

A value is an object whose one member has the name of the kind.  Collections are nested at most
`deepest` deep; an object and the list inside it are two levels.

## Main definitions

* `Value.write`: the document of a value.
* `Value.reader`: reads a value.
-/

namespace RingScan

namespace Document

/-- How many collections may be open at once. -/
def deepest : Nat := 127

/-- A list of bytes. -/
def bytes : Reader Bytes := fun s =>
  (sequence (natural 255) s).map (fun p => (p.1.map UInt8.ofNat, p.2))

/-- A 64-bit integer. -/
def int64 : Reader Int64 := fun s =>
  (signed 8 s).map (fun p => (Int64.ofInt p.1, p.2))

/-- A list of bytes as it is written. -/
def writeBytes (bytes : Bytes) : List Char :=
  writeList (bytes.map fun b => writeInteger b.toNat)

/-- A network address. -/
def address : Reader Inet.Address := fun s => do
  let (text, s) ← text s
  match Inet.Address.read? text.toList with
  | some a => .ok (a, s)
  | none => .error .shape

end Document

namespace Value

open Document

/-- The document of a value, given the document of what it holds. -/
def writeTagged (kind : Kind) (held : List Char) : List Char :=
  writeMembers [(kind.tag, held)]

mutual

/-- The document of a value. -/
def write : Value → List Char
  | text s => writeTagged .text (writeText s)
  | bigInt n => writeTagged .bigInt (writeInteger n.toInt)
  | int n => writeTagged .int (writeInteger n.toInt)
  | smallInt n => writeTagged .smallInt (writeInteger n.toInt)
  | tinyInt n => writeTagged .tinyInt (writeInteger n.toInt)
  | boolean b => writeTagged .boolean (writeBoolean b)
  | double x => writeTagged .double (writeDouble x)
  | float x => writeTagged .float (writeSingle x)
  | blob b => writeTagged .blob (writeBytes b)
  | uuid s => writeTagged .uuid (writeText s)
  | timestamp n => writeTagged .timestamp (writeInteger n.toInt)
  | inet a => writeTagged .inet (writeText (String.ofList a.write))
  | list items => writeTagged .list (writeList (writeAll items))

/-- The documents of several values. -/
def writeAll : List Value → List (List Char)
  | [] => []
  | item :: rest => write item :: writeAll rest

end

/-- The kind that a name in a document stands for. -/
def Kind.ofTag? (tag : String) : Option Kind :=
  [Kind.text, .bigInt, .int, .smallInt, .tinyInt, .boolean, .double, .float, .blob, .uuid,
    .timestamp, .inet, .list].find? (·.tag == tag)

/-- Reads what a value holds and makes the value of it. -/
def holding {α : Type} (make : α → Value) (held : Reader α) : Reader Value := fun s =>
  (held s).map (fun p => (make p.1, p.2))

/-- What `collection` reads, or a collection that is nested too deeply where there is no reader. -/
def nested {α : Type} : Option (Reader α) → Reader α
  | some collection => collection
  | none => fun s =>
    match skipBlank s with
    | '[' :: _ => .error .malformed
    | s => .error (mismatch s)

/-- Reads what a value of a kind holds; `items` reads the values of a list, where a further
collection may be opened. -/
def held (items : Option (Reader Value)) : Kind → Reader Value
  | .text => holding text Document.text
  | .bigInt => holding bigInt int64
  | .int => holding (fun n => int (Int32.ofInt n)) (signed 4)
  | .smallInt => holding (fun n => smallInt (Int16.ofInt n)) (signed 2)
  | .tinyInt => holding (fun n => tinyInt (Int8.ofInt n)) (signed 1)
  | .boolean => holding boolean Document.boolean
  | .double => holding double Document.double
  | .float => holding float single
  | .blob => holding blob (nested (items.map fun _ => bytes))
  | .uuid => holding uuid Document.text
  | .timestamp => holding timestamp int64
  | .inet => holding inet address
  | .list => holding list (nested (items.map sequence))

/-- Reads a value whose lists are read by `items`. -/
def tagged (items : Option (Reader Value)) : Reader Value :=
  Document.tagged false (fun _ => none) fun tag => (Kind.ofTag? tag).map (held items)

/-- Reads a value that may open the given number of collections. -/
def reader : Nat → Reader Value
  | 0 => Document.tagged true (fun _ => none) fun _ => none
  | 1 => tagged none
  | levels + 2 => tagged (some (reader levels))

end Value

end RingScan
