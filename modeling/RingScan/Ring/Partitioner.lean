import RingScan.Failure
import RingScan.Ring.Murmur
import RingScan.Ring.Token

/-!
# Partitioners

A partitioner gives each partition key its place on the ring: by its hash, or by its bytes.

## Main definitions

* `Partitioner`: the two ways.
* `Partitioner.ofIdentifier`: the one that an identifier stands for.
* `Partitioner.tokenOf`: the token of a key.
* `Partitioner.readToken`: the token that a text stands for.
-/

namespace RingScan

/-- How partition keys are placed on the ring. -/
inductive Partitioner where
  /-- By their hash. -/
  | hashed
  /-- By their bytes. -/
  | byteOrdered
  deriving DecidableEq, Repr

namespace Partitioner

/-- The full identifier of a partitioner. -/
def name : Partitioner → String
  | hashed => "org.apache.cassandra.dht.Murmur3Partitioner"
  | byteOrdered => "org.apache.cassandra.dht.ByteOrderedPartitioner"

/-- The part of an identifier after its last point. -/
def lastPart (identifier : List Char) : List Char :=
  (identifier.reverse.takeWhile (· != '.')).reverse

/-- The partitioner that an identifier stands for; what precedes the last point is not looked at. -/
def ofIdentifier (identifier : String) : Except ConfigurationFault Partitioner :=
  let last := String.ofList (Text.trimChars (lastPart identifier.toList))
  if last = "Murmur3Partitioner" then .ok hashed
  else if last = "ByteOrderedPartitioner" then .ok byteOrdered
  else .error (.unsupportedPartitioner identifier)

/-- The token of a hash.  The smallest number is kept for the start of the ring, so a hash that
falls on it becomes the largest. -/
def hashToken (h : UInt64) : Token :=
  let n := h.toInt64
  .long (if n = Int64.minValue then Int64.maxValue else n)

/-- The token of a key. -/
def tokenOf : Partitioner → Bytes → Token
  | hashed, key => hashToken (Murmur.hash key).first
  | byteOrdered, key => .bytes key

/-- The smallest token of the ring. -/
def least : Partitioner → Token
  | hashed => .long Int64.minValue
  | byteOrdered => .bytes []

/-- The token that a text stands for, whatever blanks surround it. -/
def readToken : Partitioner → String → Except ConfigurationFault Token
  | hashed, text =>
    match Text.readInteger (Nat.pow 2 63) (Nat.pow 2 63 - 1) (Text.trimChars text.toList) with
    | .ok n => .ok (.long (Int64.ofInt n))
    | .error fault => .error (.hashedToken text fault)
  | byteOrdered, text =>
    match Text.Hex.decode (Text.Utf8.encode (Text.trimChars text.toList)) with
    | .ok key => .ok (.bytes key)
    | .error fault => .error (.byteToken text fault)

end Partitioner

end RingScan
