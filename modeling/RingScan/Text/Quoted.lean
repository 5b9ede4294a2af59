/-!
# Quoted text

A quoted text stands between two quote characters, and each quote character inside it is written
twice.  Identifiers are quoted by double quotes and literals by single quotes.

## Main definitions

* `Text.doubled`, `Text.undoubled?`: the inside of a quoted text and its inverse.
* `Text.quoted`, `Text.unquoted?`: a text with its quotes and its inverse.
* `Text.identifier`, `Text.readIdentifier?`, `Text.literal`: the two kinds of quoting in use.
-/

namespace RingScan.Text

/-- Writes each quote character twice. -/
def doubled (quote : Char) : List Char → List Char
  | [] => []
  | c :: cs => if c = quote then c :: c :: doubled quote cs else c :: doubled quote cs

/-- Reads each pair of quote characters as one; a quote character that stands alone is refused. -/
def undoubled? (quote : Char) : List Char → Option (List Char)
  | [] => some []
  | [c] => if c = quote then none else some [c]
  | c :: d :: cs =>
    if c = quote then
      if d = quote then (undoubled? quote cs).map (c :: ·) else none
    else (undoubled? quote (d :: cs)).map (c :: ·)

/-- A text between quote characters, with those inside it written twice. -/
def quoted (quote : Char) (cs : List Char) : List Char :=
  quote :: (doubled quote cs ++ [quote])

/-- The text that a quoted text stands for, if its characters are a quoted text. -/
def unquoted? (quote : Char) : List Char → Option (List Char)
  | [] => none
  | c :: cs =>
    if c = quote ∧ cs.getLast? = some quote then undoubled? quote cs.dropLast else none

/-- An identifier between double quotes. -/
def identifier (name : String) : String :=
  String.ofList (quoted '"' name.toList)

/-- The identifier that a text between double quotes stands for. -/
def readIdentifier? (s : String) : Option String :=
  (unquoted? '"' s.toList).map String.ofList

/-- A literal between single quotes. -/
def literal (s : String) : List Char :=
  quoted '\'' s.toList

end RingScan.Text
