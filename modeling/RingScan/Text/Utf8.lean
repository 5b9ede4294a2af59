/-!
# UTF-8

Characters as bytes and bytes as characters.  Where the bytes are no text, the fault tells how many
bytes from the left are text and how long the offending sequence is: the longest beginning of a
well-formed sequence that the bytes hold, or one byte if there is none.

## Main definitions

* `Text.Utf8.encode`: the bytes of a list of characters.
* `Text.Utf8.decode`: the characters of a list of bytes, or the first fault.
-/

namespace RingScan

/-- A sequence of bytes: a cell, a key, or a text in its encoded form. -/
abbrev Bytes := List UInt8

namespace Text.Utf8

/-- The bytes of a list of characters. -/
def encode (cs : List Char) : Bytes :=
  cs.flatMap String.utf8EncodeChar

/-- The bytes of a text. -/
def bytes (s : String) : Bytes :=
  encode s.toList

/-- How many bytes a list of characters takes. -/
def size (cs : List Char) : Nat :=
  cs.foldr (fun c n => c.utf8Size + n) 0

/-- Why bytes are no text; `start` is the number of bytes before the offending sequence. -/
inductive Fault where
  /-- The `width` bytes from `start` on begin no character. -/
  | invalid (width start : Nat)
  /-- The bytes end inside a character. -/
  | incomplete (start : Nat)
  deriving DecidableEq, Repr

/-- The wording of a fault. -/
def Fault.message : Fault → String
  | invalid width start => s!"invalid utf-8 sequence of {width} bytes from index {start}"
  | incomplete start => s!"incomplete utf-8 byte sequence from index {start}"

/-- The six low bits of a continuation byte. -/
def low (b : UInt8) : Nat :=
  b.toNat % 64

/-- A byte lies between two others, ends included. -/
def within (b lo hi : UInt8) : Bool :=
  lo ≤ b && b ≤ hi

/-- The bytes that continue a character. -/
def isContinuation (b : UInt8) : Bool :=
  within b 0x80 0xBF

/-- The second byte of a three-byte character: no shorter form, no surrogate. -/
def isSecondOfThree (first second : UInt8) : Bool :=
  if first = 0xE0 then within second 0xA0 0xBF
  else if first = 0xED then within second 0x80 0x9F
  else isContinuation second

/-- The second byte of a four-byte character: no shorter form, nothing above U+10FFFF. -/
def isSecondOfFour (first second : UInt8) : Bool :=
  if first = 0xF0 then within second 0x90 0xBF
  else if first = 0xF4 then within second 0x80 0x8F
  else isContinuation second

/-- The characters of the bytes that follow `start` bytes of text. -/
def decodeFrom (start : Nat) : Bytes → Except Fault (List Char)
  | [] => .ok []
  | b :: rest =>
    if b < 0x80 then
      (decodeFrom (start + 1) rest).map (Char.ofNat b.toNat :: ·)
    else if within b 0xC2 0xDF then
      match rest with
      | [] => .error (.incomplete start)
      | c :: rest =>
        if isContinuation c then
          (decodeFrom (start + 2) rest).map (Char.ofNat (b.toNat % 32 * 64 + low c) :: ·)
        else .error (.invalid 1 start)
    else if within b 0xE0 0xEF then
      match rest with
      | [] => .error (.incomplete start)
      | c :: rest =>
        if isSecondOfThree b c then
          match rest with
          | [] => .error (.incomplete start)
          | d :: rest =>
            if isContinuation d then
              (decodeFrom (start + 3) rest).map
                (Char.ofNat (b.toNat % 16 * 4096 + low c * 64 + low d) :: ·)
            else .error (.invalid 2 start)
        else .error (.invalid 1 start)
    else if within b 0xF0 0xF4 then
      match rest with
      | [] => .error (.incomplete start)
      | c :: rest =>
        if isSecondOfFour b c then
          match rest with
          | [] => .error (.incomplete start)
          | d :: rest =>
            if isContinuation d then
              match rest with
              | [] => .error (.incomplete start)
              | e :: rest =>
                if isContinuation e then
                  (decodeFrom (start + 4) rest).map
                    (Char.ofNat (b.toNat % 8 * 262144 + low c * 4096 + low d * 64 + low e) :: ·)
                else .error (.invalid 3 start)
            else .error (.invalid 2 start)
        else .error (.invalid 1 start)
    else .error (.invalid 1 start)

/-- The characters of a list of bytes, or the first fault. -/
def decode (bs : Bytes) : Except Fault (List Char) :=
  decodeFrom 0 bs

end Text.Utf8

end RingScan
