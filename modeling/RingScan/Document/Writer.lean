import RingScan.Decimal.Real
import RingScan.Document.Text

/-!
# Writing documents

Documents are written without blanks, the members of an object in a fixed order.

## Main definitions

* `Document.writeInteger`, `Document.writeBoolean`, `Document.writeDouble`,
  `Document.writeSingle`: scalars.
* `Document.writeList`, `Document.writeMembers`: collections.
-/

namespace RingScan.Document

open Decimal

/-- The style of 64-bit reals: written out in full from `10 ^ -5` to below `10 ^ 16`. -/
def doubleStyle : Style where
  tie := .toEven
  positional := some (-5, 15)
  marksWhole := true
  nan := "null"
  infinity := "null"
  negativeInfinity := "null"

/-- The style of 32-bit reals: written out in full from `10 ^ -6` to below `10 ^ 13`. -/
def singleStyle : Style :=
  { doubleStyle with positional := some (-6, 12) }

/-- A whole number. -/
def writeInteger (n : Int) : List Char :=
  Text.integer n

/-- A truth value. -/
def writeBoolean (b : Bool) : List Char :=
  if b then ['t', 'r', 'u', 'e'] else ['f', 'a', 'l', 's', 'e']

/-- The word for nothing. -/
def writeNull : List Char :=
  ['n', 'u', 'l', 'l']

/-- A 64-bit real. -/
def writeDouble (x : Double) : List Char :=
  doubleStyle.write .double x.bits.toNat

/-- A 32-bit real. -/
def writeSingle (x : Single) : List Char :=
  singleStyle.write .single x.bits.toNat

/-- Items with commas between them. -/
def separated : List (List Char) → List Char
  | [] => []
  | [item] => item
  | item :: rest => item ++ ',' :: separated rest

/-- A list of values. -/
def writeList (items : List (List Char)) : List Char :=
  '[' :: (separated items ++ [']'])

/-- A member of an object. -/
def writeMember (name : String) (value : List Char) : List Char :=
  writeText name ++ ':' :: value

/-- An object. -/
def writeMembers (members : List (String × List Char)) : List Char :=
  '{' :: (separated (members.map fun m => writeMember m.1 m.2) ++ ['}'])

end RingScan.Document
