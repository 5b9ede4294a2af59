import RingScan.Text.Utf8

/-!
# Network addresses

An address is its bytes: four for the older kind, sixteen for the newer one.

## Main definitions

* `Inet.Address`: an address.
* `Inet.Address.groups`: the eight 16-bit groups of a sixteen-byte address.
* `Inet.Address.isLoopback`: the addresses of the machine itself.
-/

namespace RingScan.Inet

/-- A network address. -/
structure Address where
  /-- The bytes of the address, the most significant first. -/
  bytes : Bytes
  /-- There are four or sixteen bytes. -/
  size_eq : bytes.length = 4 ∨ bytes.length = 16
  deriving DecidableEq, Repr

/-- The 16-bit groups of a list of bytes. -/
def groupsOf : Bytes → List Nat
  | high :: low :: rest => (high.toNat * 256 + low.toNat) :: groupsOf rest
  | _ => []

/-- The bytes of a list of 16-bit groups. -/
def bytesOf (groups : List Nat) : Bytes :=
  groups.flatMap fun g => [UInt8.ofNat (g / 256), UInt8.ofNat (g % 256)]

namespace Address

/-- The address of a list of bytes, if there are as many as an address has. -/
def ofBytes? (bytes : Bytes) : Option Address :=
  if h : bytes.length = 4 ∨ bytes.length = 16 then some ⟨bytes, h⟩ else none

/-- The address has four bytes. -/
def isShort (a : Address) : Bool :=
  a.bytes.length == 4

/-- The 16-bit groups of an address. -/
def groups (a : Address) : List Nat :=
  groupsOf a.bytes

/-- The addresses of the machine itself: the four-byte ones whose first byte is 127 and the
sixteen-byte one that is one. -/
def isLoopback (a : Address) : Bool :=
  if a.isShort then a.bytes.head? == some 127
  else a.bytes == List.replicate 15 0 ++ [1]

end Address

end RingScan.Inet
