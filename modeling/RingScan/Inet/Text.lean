import RingScan.Inet.Address
import RingScan.Text.Hex
import RingScan.Text.Integer

/-!
# Texts of network addresses

Four-byte addresses are written as four decimal numbers, sixteen-byte ones as eight groups of
hexadecimal digits in which the longest run of zero groups is left out.  Reading is strict: no
leading zeros in decimal numbers, no more than four digits in a group, at least one group left out
by a double colon.

## Main definitions

* `Inet.Address.write`: the text of an address.
* `Inet.Address.read?`: the address that a text stands for.
-/

namespace RingScan.Inet

/-! ### Writing -/

/-- Four bytes as decimal numbers. -/
def writeShort (bytes : Bytes) : List Char :=
  ['.'].intercalate (bytes.map fun b => Text.digits b.toNat)

/-- Groups as hexadecimal digits. -/
def writeGroups (groups : List Nat) : List Char :=
  [':'].intercalate (groups.map (Nat.toDigits 16))

/-- The number of zeros at the front. -/
def leadingZeros (groups : List Nat) : Nat :=
  (groups.takeWhile (· == 0)).length

/-- The start and the length of the longest run of zeros, the first of several. -/
def longestZeros : List Nat → Nat × Nat
  | [] => (0, 0)
  | g :: rest =>
    let here := leadingZeros (g :: rest)
    let later := longestZeros rest
    if later.2 ≤ here then (0, here) else (later.1 + 1, later.2)

namespace Address

/-- The text of an address.  A sixteen-byte address that stands for a four-byte one shows it. -/
def write (a : Address) : List Char :=
  if a.isShort then writeShort a.bytes
  else
    let groups := a.groups
    if groups.take 6 = [0, 0, 0, 0, 0, 0xFFFF] then
      "::ffff:".toList ++ writeShort (a.bytes.drop 12)
    else
      let (start, length) := longestZeros groups
      if 1 < length then
        writeGroups (groups.take start) ++ ':' :: ':' :: writeGroups (groups.drop (start + length))
      else writeGroups groups

end Address

/-! ### Reading -/

/-- A decimal number below 256 without leading zeros. -/
def readOctet (s : List Char) : Option (UInt8 × List Char) :=
  let digits := s.takeWhile Char.isDigit
  let n := digits.foldl (fun n c => n * 10 + (c.toNat - '0'.toNat)) 0
  let hasLeadingZero := digits.head? = some '0' ∧ 1 < digits.length
  if digits.isEmpty ∨ 3 < digits.length ∨ hasLeadingZero ∨ 255 < n then none
  else some (UInt8.ofNat n, s.dropWhile Char.isDigit)

/-- Four decimal numbers with points between them. -/
def readShort (s : List Char) : Option (Bytes × List Char) := do
  let point : List Char → Option (List Char)
    | '.' :: s => some s
    | _ => none
  let (a, s) ← readOctet s
  let (b, s) ← readOctet (← point s)
  let (c, s) ← readOctet (← point s)
  let (d, s) ← readOctet (← point s)
  some ([a, b, c, d], s)

/-- One to four hexadecimal digits. -/
def readGroup (s : List Char) : Option (Nat × List Char) :=
  let digits := (s.takeWhile fun c => (Text.Hex.value? c).isSome).filterMap Text.Hex.value?
  if digits.isEmpty ∨ 4 < digits.length then none
  else some (digits.foldl (fun n d => n * 16 + d) 0, s.drop digits.length)

/-- What follows a colon, which only the first group goes without. -/
def afterColon (first : Bool) (s : List Char) : Option (List Char) :=
  if first then some s
  else match s with
    | ':' :: s => some s
    | _ => none

/-- At most `limit` groups, of which the last two may be written as a four-byte address: the
groups, whether they end so, and what is left. -/
def readGroups : Nat → Bool → List Char → List Nat × Bool × List Char
  | 0, _, s => ([], false, s)
  | limit + 1, first, s =>
    match if limit = 0 then none else (afterColon first s).bind readShort with
    | some (bytes, s) => (groupsOf bytes, true, s)
    | none =>
      match (afterColon first s).bind readGroup with
      | none => ([], false, s)
      | some (g, s) =>
        let (groups, endsShort, s) := readGroups limit false s
        (g :: groups, endsShort, s)

/-- Eight groups, of which a double colon may leave some out. -/
def readLong (s : List Char) : Option (List Nat × List Char) :=
  match readGroups 8 true s with
  | (front, endsShort, s) =>
    if front.length = 8 then some (front, s)
    else if endsShort then none
    else match s with
      | ':' :: ':' :: s =>
        let (back, _, s) := readGroups (7 - front.length) true s
        some (front ++ List.replicate (8 - front.length - back.length) 0 ++ back, s)
      | _ => none

/-- The address that a text stands for. -/
def Address.read? (s : List Char) : Option Address :=
  match readShort s with
  | some (bytes, rest) => if rest.isEmpty then Address.ofBytes? bytes else none
  | none =>
    match readLong s with
    | some (groups, rest) => if rest.isEmpty then Address.ofBytes? (bytesOf groups) else none
    | none => none

end RingScan.Inet
