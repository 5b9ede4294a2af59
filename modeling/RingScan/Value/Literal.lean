import RingScan.Inet.Text
import RingScan.Text.Quoted
import RingScan.Uuid
import RingScan.Value.Basic

/-!
# Literals

Values as they are written inside a statement.  Texts, addresses and malformed identifiers are
quoted; reals are written out in full; several values stand between parentheses.

## Main definitions

* `Value.literal`: the literal of a value.
-/

namespace RingScan.Value

open Decimal

/-- The style of reals in statements: always written out in full. -/
def literalStyle : Style where
  tie := .up
  positional := none
  marksWhole := false
  nan := "NaN"
  infinity := "inf"
  negativeInfinity := "-inf"

mutual

/-- The literal of a value. -/
def literal : Value → List Char
  | text s => Text.literal s
  | bigInt n => Text.integer n.toInt
  | int n => Text.integer n.toInt
  | smallInt n => Text.integer n.toInt
  | tinyInt n => Text.integer n.toInt
  | timestamp n => Text.integer n.toInt
  | boolean b => if b then ['t', 'r', 'u', 'e'] else ['f', 'a', 'l', 's', 'e']
  | double x => literalStyle.write .double x.bits.toNat
  | float x => literalStyle.write .single x.bits.toNat
  | blob bytes => '0' :: 'x' :: Text.Hex.encode bytes
  | uuid s =>
    match Uuid.read s with
    | .ok bytes => Uuid.write bytes
    | .error _ => Text.literal s
  | inet a => '\'' :: (a.write ++ ['\''])
  | list items => '(' :: (literals items ++ [')'])

/-- The literals of several values, with commas between them. -/
def literals : List Value → List Char
  | [] => []
  | [item] => literal item
  | item :: rest => literal item ++ ',' :: literals rest

end

/-- The literal of a value, as a text. -/
def literalText (value : Value) : String :=
  String.ofList value.literal

end RingScan.Value
