import RingScan.Text.Blank

/-!
# Column types

The types of the columns of a table and their names.

## Main definitions

* `ColumnType`: a column type.
* `ColumnType.name`, `ColumnType.ofName?`: its name and the type that a name stands for.
-/

namespace RingScan

/-- The type of a column. -/
inductive ColumnType where
  | ascii
  | bigInt
  | blob
  | boolean
  | counter
  | double
  | float
  | inet
  | int
  | smallInt
  | text
  | timestamp
  | timeUuid
  | tinyInt
  | uuid
  deriving DecidableEq, Repr

namespace ColumnType

/-- The name of a type. -/
def name : ColumnType → String
  | ascii => "ascii"
  | bigInt => "bigint"
  | blob => "blob"
  | boolean => "boolean"
  | counter => "counter"
  | double => "double"
  | float => "float"
  | inet => "inet"
  | int => "int"
  | smallInt => "smallint"
  | text => "text"
  | timestamp => "timestamp"
  | timeUuid => "timeuuid"
  | tinyInt => "tinyint"
  | uuid => "uuid"

/-- The type that a name in small letters stands for; text has a second name. -/
def ofLowerName? : String → Option ColumnType
  | "ascii" => some ascii
  | "bigint" => some bigInt
  | "blob" => some blob
  | "boolean" => some boolean
  | "counter" => some counter
  | "double" => some double
  | "float" => some float
  | "inet" => some inet
  | "int" => some int
  | "smallint" => some smallInt
  | "text" => some text
  | "varchar" => some text
  | "timestamp" => some timestamp
  | "timeuuid" => some timeUuid
  | "tinyint" => some tinyInt
  | "uuid" => some uuid
  | _ => none

/-- A name without the blanks around it and in small letters. -/
def normalName (name : String) : String :=
  Text.asciiLower (Text.trim name)

/-- The type that a name stands for, whatever its case and the blanks around it. -/
def ofName? (name : String) : Option ColumnType :=
  ofLowerName? (normalName name)

/-- The bytes of a cell of an integer type. -/
def integerWidth? : ColumnType → Option Nat
  | bigInt => some 8
  | counter => some 8
  | timestamp => some 8
  | int => some 4
  | smallInt => some 2
  | tinyInt => some 1
  | _ => none

end ColumnType

end RingScan
