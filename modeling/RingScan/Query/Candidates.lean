import RingScan.Job.Basic
import RingScan.Key.Shape
import RingScan.Ring.Split

/-!
# Candidates

The values of a lookup belong to the whole ring, and a split answers only for those whose key lies
in it.

## Main definitions

* `Lookup.keyOf`: the key of a candidate.
* `Lookup.retained`: the candidates whose key lies in a split.
-/

namespace RingScan.Lookup

/-- The key of a candidate: the value of the first field and the candidate. -/
def keyOf (lookup : Lookup) (shape : KeyShape) (candidate : Value) : Except EncodingFault Bytes :=
  shape.encode [lookup.equalsValue, candidate]

/-- The candidates whose key lies in a split, in their order.  All of them must have a key. -/
def keep (lookup : Lookup) (shape : KeyShape) (partitioner : Partitioner) (split : Split) :
    List Value → Except EncodingFault (List Value)
  | [] => .ok []
  | candidate :: candidates => do
    let key ← lookup.keyOf shape candidate
    let rest ← keep lookup shape partitioner split candidates
    .ok (if split.contains (partitioner.tokenOf key) then candidate :: rest else rest)

/-- The candidates of a lookup whose key lies in a split; the partition key must have several
columns. -/
def retained (lookup : Lookup) (shape : KeyShape) (partitioner : Partitioner) (split : Split) :
    Except Failure (List Value) :=
  if shape.isComposite then
    (lookup.keep shape partitioner split lookup.inValues).mapError .encoding
  else
    .error (.configuration (.lookupOnScalarKey lookup.equalsField lookup.inField))

end RingScan.Lookup
