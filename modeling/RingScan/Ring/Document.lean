import RingScan.Ring.Split
import RingScan.Value.Document

/-!
# Tokens and splits in documents

## Main definitions

* `Token.write`, `Token.reader`: a token, as one of the two cases.
* `Split.write`, `Split.reader`: a split, whose endpoints may be left out.
-/

namespace RingScan

open Document

namespace Token

/-- The document of a token. -/
def write : Token → List Char
  | long n => writeMembers [("long", writeInteger n.toInt)]
  | bytes key => writeMembers [("bytes", writeBytes key)]

/-- What a token of the named case holds. -/
def held : String → Option (Reader Token)
  | "long" => some fun s => (int64 s).map (fun p => (long p.1, p.2))
  | "bytes" => some fun s => (Document.bytes s).map (fun p => (bytes p.1, p.2))
  | _ => none

/-- Reads a token. -/
def reader : Reader Token :=
  tagged false (fun _ => none) held

end Token

namespace Split

/-- The document of a split. -/
def write (split : Split) : List Char :=
  writeMembers [("start_token", split.start.write), ("end_token", split.stop.write),
    ("replicas", writeList (split.replicas.map writeText))]

/-- What has been read of a split. -/
structure Draft where
  /-- The token before the slice. -/
  start : Option Token := none
  /-- The last token of the slice. -/
  stop : Option Token := none
  /-- The endpoints. -/
  replicas : Option (List String) := none

/-- The members of a split. -/
def fields : List (Member Draft) :=
  [Member.slot "start_token" Draft.start (fun d x => { d with start := some x }) Token.reader,
    Member.slot "end_token" Draft.stop (fun d x => { d with stop := some x }) Token.reader,
    Member.slot "replicas" Draft.replicas (fun d x => { d with replicas := some x })
      (sequence Document.text)]

/-- The split of what has been read. -/
def Draft.finish (d : Draft) : Option Split := do
  some ⟨← d.start, ← d.stop, d.replicas.getD []⟩

/-- Reads a split. -/
def reader : Reader Split :=
  record fields {} Draft.finish

end Split

end RingScan
